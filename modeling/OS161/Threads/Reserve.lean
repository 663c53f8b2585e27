import OS161.Threads.Calls

namespace OS161.Threads

open OS161.Data
open OS161.Kern
open OS161.Lib

/-! The room that `thread_fork` makes in the run queue, the sleepers and the
zombies, and whether it lasts where the other calls find no memory. -/

namespace ThreadSystem

/-- A fact that the fields of the threads do not decide, and that lasts while
the run queue and the sleepers give no cells back. -/
structure Lasts (inv : ThreadSystem → Prop) : Prop where
  fields : inv s → inv { s with thread := threads, curthread := cur, numthreads := num }
  runqueue : s.runqueue.size ≤ q.size → inv s → inv { s with runqueue := q }
  sleepers : s.sleepers.max ≤ a.max → inv s → inv { s with sleepers := a }

section Lasts

variable {inv : ThreadSystem → Prop}

theorem Lasts.makeRunnable (hlasts : Lasts inv) (mem : Bool) (t : Tid) :
    (ThreadSystem.makeRunnable mem t).Preserves inv := by
  refine .of_wp fun s hinv => ?_
  simp only [ThreadSystem.makeRunnable, onRunqueue, ↓Prog.wp_zoom]
  refine Prog.wp_mono (Queue.le_size_qAddtail mem t s.runqueue) ?_ (fun _ _ h => h)
    (fun _ h => h)
  intro _ q hq
  exact hlasts.runqueue hq hinv

theorem Lasts.onSleepers (hlasts : Lasts inv) {body : KArray.Op Tid α}
    (hbody : ∀ a, body.wp (fun _ b => a.max ≤ b.max) (fun _ _ => True)
      (fun _ => True) a) :
    (ThreadSystem.onSleepers body).Preserves inv := by
  refine .of_wp fun s hinv => ?_
  simp only [ThreadSystem.onSleepers, ↓Prog.wp_zoom]
  refine Prog.wp_mono (hbody s.sleepers) ?_ (fun _ _ h => h) (fun _ h => h)
  intro _ a ha
  exact hlasts.sleepers ha hinv

theorem Lasts.setThread (hlasts : Lasts inv) (t : Tid) (f : Thread → Thread) :
    (ThreadSystem.setThread t f).Preserves inv :=
  .of_wp fun _ hinv => hlasts.fields hinv

theorem Lasts.miSwitch (hlasts : Lasts inv) (mem : Bool) (nextstate : ThreadState)
    (resume : Resume) (hzomb : nextstate = .zomb → ∀ s a,
      s.zombies.max ≤ KArray.max a → inv s → inv { s with zombies := a }) :
    (ThreadSystem.miSwitch mem nextstate resume).Preserves inv := by
  refine .bind (.read _) fun cur => ?_
  cases cur with
  | none => exact .ret ()
  | some cur =>
      refine .bind (hlasts.setThread _ _) fun _ => .bind ?_ fun _ =>
        mustInsert_preserves ?_ _
      · exact .of_wp fun _ hinv => hlasts.fields hinv
      · cases nextstate with
        | ready => exact hlasts.makeRunnable mem cur
        | sleep => exact hlasts.onSleepers (KArray.le_max_arrayAdd mem cur)
        | zomb =>
            refine .of_wp fun s hinv => ?_
            simp only [onZombies, ↓Prog.wp_zoom]
            refine Prog.wp_mono (KArray.le_max_arrayAdd mem cur s.zombies) ?_
              (fun _ _ h => h) (fun _ h => h)
            intro _ a ha
            exact hzomb rfl s a ha hinv

theorem Lasts.threadSleep (hlasts : Lasts inv) (mem : Bool) (addr : SleepAddr) :
    (ThreadSystem.threadSleep mem addr).Preserves inv := by
  refine .bind (.read _) fun cur => ?_
  cases cur with
  | none => exact .panic _
  | some cur =>
      exact .bind (hlasts.setThread _ _) fun _ =>
        hlasts.miSwitch mem .sleep _ fun heq => by cases heq

theorem Lasts.threadExit (hlasts : Lasts inv) (mem : Bool)
    (hzomb : ∀ s a, s.zombies.max ≤ KArray.max a → inv s →
      inv { s with zombies := a }) :
    (ThreadSystem.threadExit mem).Preserves inv := by
  refine .bind (.read _) fun cur => ?_
  cases cur with
  | none => exact .panic _
  | some cur =>
      refine .bind (hlasts.setThread _ _) fun _ => .bind (.read _) fun n => ?_
      refine .bind (.ite _ (.ret ()) (.panic _)) fun _ => .bind ?_ fun _ =>
        hlasts.miSwitch mem .zomb _ fun _ => hzomb
      exact .of_wp fun _ hinv => hlasts.fields hinv

theorem getguy_keeps_max (i : Nat) (a : KArray Tid) :
    (KArray.arrayGetguy i).wp (fun _ b => a.max ≤ b.max) (fun _ _ => True)
      (fun _ => True) a := by
  simp only [KArray.arrayGetguy, ↓Prog.wp_bind, ↓Prog.wp_get, ↓Prog.wp_assert]
  split
  case isFalse => exact trivial
  case isTrue =>
    split
    case isFalse => exact trivial
    case isTrue =>
      split
      · exact Nat.le_refl _
      · exact trivial

theorem remove_keeps_max (i : Nat) (a : KArray Tid) :
    (KArray.arrayRemove i).wp (fun _ b => a.max ≤ b.max) (fun _ _ => True)
      (fun _ => True) a := by
  simp only [KArray.arrayRemove, ↓Prog.wp_bind, ↓Prog.wp_get, ↓Prog.wp_assert,
    ↓Prog.wp_modify]
  split
  case isFalse => exact trivial
  case isTrue =>
    split
    · exact Nat.le_refl _
    · exact trivial

theorem Lasts.wakeupScan (hlasts : Lasts inv) (mem : Bool) (addr : SleepAddr) (turns i : Nat) :
    (ThreadSystem.wakeupScan mem addr turns i).Preserves inv := by
  induction turns generalizing i with
  | zero => exact .ret ()
  | succ turns ih =>
      refine .bind (hlasts.onSleepers fun a => Nat.le_refl a.max) fun num =>
        .ite _ ?_ (.ret ())
      refine .bind (hlasts.onSleepers (getguy_keeps_max i)) fun t =>
        .bind .get fun s => .ite _ ?_ (ih _)
      exact .bind (hlasts.onSleepers (remove_keeps_max i)) fun _ =>
        .bind (mustInsert_preserves (hlasts.makeRunnable mem t) _) fun _ => ih i

theorem Lasts.threadWakeup (hlasts : Lasts inv) (mem : Bool) (addr : SleepAddr) :
    (ThreadSystem.threadWakeup mem addr).Preserves inv :=
  .bind (hlasts.onSleepers fun a => Nat.le_refl a.max) fun num =>
    hlasts.wakeupScan mem addr num 0

theorem Lasts.wakeupHeadScan (hlasts : Lasts inv) (mem : Bool) (addr : SleepAddr) (head : Tid)
    (turns i : Nat) :
    (ThreadSystem.wakeupHeadScan mem addr head turns i).Preserves inv := by
  induction turns generalizing i with
  | zero => exact .ret ()
  | succ turns ih =>
      refine .bind (hlasts.onSleepers (getguy_keeps_max i)) fun t =>
        .bind .get fun s => .ite _ ?_ (ih _)
      exact .bind (hlasts.onSleepers (remove_keeps_max i)) fun _ =>
        mustInsert_preserves (hlasts.makeRunnable mem t) _

theorem Lasts.threadWakeupHead (hlasts : Lasts inv) (mem : Bool) (addr : SleepAddr) (cvQueue : Queue Tid) :
    (ThreadSystem.threadWakeupHead mem addr cvQueue).Preserves inv := by
  unfold ThreadSystem.threadWakeupHead
  cases Queue.qRemhead cvQueue with
  | ok head rest =>
      exact .bind (hlasts.onSleepers fun a => Nat.le_refl a.max) fun num =>
        .bind (hlasts.wakeupHeadScan mem addr head num 0) fun _ => .ret rest
  | error code rest => exact .of_wp fun _ _ => trivial
  | panic reason => exact .panic _

end Lasts

/-- The three containers have at least so many cells. -/
structure Roomy (ready asleep dead : Nat) (s : ThreadSystem) : Prop where
  runqueue : ready ≤ s.runqueue.size
  sleepers : asleep ≤ s.sleepers.max
  zombies : dead ≤ s.zombies.max

theorem roomy_lasts : Lasts (Roomy ready asleep dead) where
  fields := fun h => ⟨h.runqueue, h.sleepers, h.zombies⟩
  runqueue := fun hq h => ⟨Nat.le_trans h.runqueue hq, h.sleepers, h.zombies⟩
  sleepers := fun ha h => ⟨h.runqueue, Nat.le_trans h.sleepers ha, h.zombies⟩

theorem zombies_last (a : KArray Tid) : Lasts fun s => s.zombies = a where
  fields := fun h => h
  runqueue := fun _ h => h
  sleepers := fun _ h => h

end ThreadSystem

namespace ThreadSystem

/-- The array after `array_setsize(zombies, 0)`: its cells are kept, or freed
where there were more than 16. -/
def Cleared (before after : KArray Tid) : Prop :=
  after.num = 0 ∧ (after.max = before.max ∨ after.max = 0)

theorem exorcise_room (s : ThreadSystem) :
    ThreadSystem.exorcise.wp (fun _ next =>
      next.runqueue = s.runqueue ∧ next.sleepers = s.sleepers ∧
        Cleared s.zombies next.zombies) (fun _ _ => True) (fun _ => True) s := by
  have hturn : ∀ i, (exorciseTurn i).wp (fun _ next => next = s) (fun _ _ => True)
      (fun _ => True) s := by
    intro i
    simp only [exorciseTurn, threadDestroy, onZombies, KArray.arrayGetguy,
      ↓Prog.wp_bind, ↓Prog.wp_zoom, ↓Prog.wp_get, ↓Prog.wp_assert, ↓Prog.wp_read]
    split
    case isFalse => exact trivial
    case isTrue =>
      split
      case isFalse => exact trivial
      case isTrue =>
        split
        case h_2 => exact trivial
        case h_1 =>
          simp only [↓Prog.wp_pure]
          split_ifs
  have hloop : (Prog.forFrom (fun i (_ : Unit) => exorciseTurn i) s.zombies.num 0 ()).wp
      (fun _ next => next = s) (fun _ _ => True) (fun _ => True) s := by
    refine Prog.wp_forFrom (fun _ _ next => next = s) ?_ rfl
    rintro i - next - - rfl
    exact hturn i
  simp only [ThreadSystem.exorcise, onZombies, KArray.arrayGetnum, ↓Prog.wp_bind,
    ↓Prog.wp_zoom, ↓Prog.wp_read]
  refine Prog.wp_mono hloop ?_ (fun _ _ h => h) (fun _ h => h)
  rintro _ next rfl
  simp only [KArray.arraySetsize, ↓Prog.wp_bind, ↓Prog.wp_get, ↓Prog.wp_assert,
    ↓Prog.wp_ite, ↓Prog.wp_modify]
  split
  case isFalse => exact trivial
  case isTrue =>
    rw [if_neg (by omega)]
    split
    case isTrue hbig =>
      split
      · exact ⟨trivial, trivial, rfl, .inr rfl⟩
      · exact trivial
    case isFalse => exact ⟨trivial, trivial, rfl, .inl rfl⟩

theorem dispatch_room (s : ThreadSystem) :
    ThreadSystem.dispatch.wp (fun _ final =>
      final.runqueue.size = s.runqueue.size ∧ final.sleepers = s.sleepers ∧
        (final.zombies = s.zombies ∨ Cleared s.zombies final.zombies))
      (fun _ _ => True) (fun _ => True) s := by
  simp only [ThreadSystem.dispatch, onRunqueue, ↓Prog.wp_bind, ↓Prog.wp_zoom]
  refine Prog.wp_mono (Queue.size_qRemhead s.runqueue) ?_ (fun _ _ h => h) (fun _ h => h)
  intro head runqueue hrunqueue
  have hexorcise : ThreadSystem.exorcise.wp (fun _ final =>
      final.runqueue.size = s.runqueue.size ∧ final.sleepers = s.sleepers ∧
        (final.zombies = s.zombies ∨ Cleared s.zombies final.zombies))
      (fun _ _ => True) (fun _ => True)
      { s with runqueue := runqueue, curthread := some head } := by
    refine Prog.wp_mono (exorcise_room _) ?_ (fun _ _ h => h) (fun _ h => h)
    rintro _ final ⟨hqueue, hsleepers, hcleared⟩
    exact ⟨by rw [hqueue, hrunqueue], hsleepers, .inr hcleared⟩
  simp only [↓Prog.wp_modify, ↓Prog.wp_get]
  cases (s.thread head).tPcb with
  | threadstart => exact ⟨hrunqueue, rfl, .inl rfl⟩
  | threadYield => exact hexorcise
  | threadExit => exact hexorcise
  | threadSleep =>
      simp only [↓Prog.wp_bind, setThread, ↓Prog.wp_modify]
      exact hexorcise

/-- The reservations of `thread_fork`. -/
theorem threadFork_room (newguy : Tid) (s : ThreadSystem) :
    (threadFork true newguy).wp (fun _ next =>
      Roomy (max s.runqueue.size (s.numthreads + 1))
        (max s.sleepers.max (s.numthreads + 1))
        (KArray.growMax (s.numthreads + 1) (s.numthreads + 1) s.zombies.max) next)
      (fun _ _ => True) (fun _ => True) s := by
  simp only [threadFork, threadCreate, setThread, onSleepers, onZombies, onRunqueue,
    ↓Prog.wp_bind, ↓Prog.wp_modify, ↓Prog.wp_read, ↓Prog.wp_get, ↓Prog.wp_zoom]
  refine Prog.wp_mono (KArray.le_max_arrayPreallocate true _ s.sleepers) ?_
    (fun _ _ h => h) (fun _ h => h)
  rintro _ sleepers ⟨hsleepers, hgrown, -⟩
  refine Prog.wp_mono (KArray.le_max_arrayPreallocate true _ s.zombies) ?_
    (fun _ _ h => h) (fun _ h => h)
  rintro _ zombies ⟨-, hzombies, -⟩
  refine Prog.wp_mono (Queue.le_size_qPreallocate true _ s.runqueue) ?_
    (fun _ _ h => h) (fun _ h => h)
  rintro _ runqueue ⟨hsame, hmore⟩
  have hasleep : s.numthreads + 1 ≤ sleepers.max := by
    rw [hgrown]
    exact KArray.nguys_le_growMax _ _ _ (by omega)
  refine Prog.wp_mono ((roomy_lasts.makeRunnable true newguy).wp ⟨Nat.max_le.mpr ⟨hsame, hmore⟩,
    Nat.max_le.mpr ⟨hsleepers, hasleep⟩, Nat.le_of_eq hzombies.symm⟩) ?_
    (fun _ _ h => h) (fun _ h => h)
  intro _ next hnext
  exact ⟨hnext.runqueue, hnext.sleepers, hnext.zombies⟩

end ThreadSystem

namespace Act

open ThreadSystem

theorem Takes.room {act : Act} (htakes : act.Takes c d) :
    c.sys.runqueue.size ≤ d.sys.runqueue.size ∧
      c.sys.sleepers.max ≤ d.sys.sleepers.max := by
  have hrun := htakes.run_true
  have hkept : (act.run true).Preserves
      (Roomy c.sys.runqueue.size c.sys.sleepers.max 0) →
      c.sys.runqueue.size ≤ d.sys.runqueue.size ∧
        c.sys.sleepers.max ≤ d.sys.sleepers.max := by
    intro hpreserves
    have hroomy := hpreserves _ _ _ ⟨Nat.le_refl _, Nat.le_refl _, Nat.zero_le _⟩ hrun
    exact ⟨hroomy.runqueue, hroomy.sleepers⟩
  cases act with
  | fork newguy =>
      have hroomy := (threadFork_room newguy c.sys).post_of_ok hrun
      exact ⟨Nat.le_trans (Nat.le_max_left _ _) hroomy.runqueue,
        Nat.le_trans (Nat.le_max_left _ _) hroomy.sleepers⟩
  | yield =>
      exact hkept (roomy_lasts.miSwitch true .ready .threadYield fun heq => by cases heq)
  | sleep addr => exact hkept (roomy_lasts.threadSleep true addr)
  | wakeup addr => exact hkept (roomy_lasts.threadWakeup true addr)
  | wakeupHead addr cvQueue =>
      exact hkept (.bind (roomy_lasts.threadWakeupHead true addr cvQueue) fun _ => .ret ())
  | exit =>
      exact hkept (roomy_lasts.threadExit true fun _ _ ha h =>
        ⟨h.runqueue, h.sleepers, Nat.le_trans h.zombies ha⟩)
  | other t vmspace cwd =>
      exact hkept (roomy_lasts.setThread t
        fun u => { u with tVmspace := vmspace, tCwd := cwd })
  | exorcise =>
      obtain ⟨hqueue, hsleepers, -⟩ := (exorcise_room c.sys).post_of_ok hrun
      exact ⟨Nat.le_of_eq (by rw [hqueue]), Nat.le_of_eq (by rw [hsleepers])⟩
  | dispatch =>
      obtain ⟨hqueue, hsleepers, -⟩ := (dispatch_room c.sys).post_of_ok hrun
      exact ⟨Nat.le_of_eq hqueue.symm, Nat.le_of_eq (by rw [hsleepers])⟩

/-- Only `thread_fork` raises the number of threads. -/
theorem Takes.numthreads_le {act : Act} (htakes : act.Takes c d) (hinv : Config.Inv c)
    (hfork : ∀ newguy, act ≠ .fork newguy) : d.sys.numthreads ≤ c.sys.numthreads := by
  obtain ⟨_, _, _, hd⟩ := hinv.step htakes.step
  obtain ⟨_, _, _, hc⟩ := hinv
  rw [hc.counted, hd.counted, htakes.lives]
  apply Finset.card_le_card
  cases act with
  | fork newguy => exact absurd rfl (hfork newguy)
  | exit =>
      simp only [Act.live]
      split
      · exact Finset.erase_subset _ _
      · exact Finset.Subset.refl _
  | _ => exact Finset.Subset.refl _

end Act

namespace Config

theorem Conserved.numthreads_eq (h : Conserved c ready asleep dead) :
    c.sys.numthreads = c.sys.curthread.toList.length + ready.length + asleep.length := by
  have hnodup : (c.sys.curthread.toList ++ (ready ++ asleep)).Nodup := by
    rw [List.nodup_iff_count_le_one]
    intro t
    rw [h.placed]
    split <;> omega
  have hlive : (c.sys.curthread.toList ++ (ready ++ asleep)).toFinset = c.live := by
    ext t
    rw [List.mem_toFinset, h.mem_live_iff]
  rw [h.counted, ← hlive, List.toFinset_card_of_nodup hnodup]
  simp only [List.length_append]
  omega

/-- The room that the forks so far have made is still there.  `thread_bootstrap`
makes none among the sleepers. -/
structure Reserved (c : Config) : Prop where
  inv : Inv c
  runqueue : c.sys.numthreads ≤ c.sys.runqueue.size
  sleepers : (c.sys.sleepers.max = 0 ∧ c.sys.numthreads ≤ 1) ∨
    c.sys.numthreads ≤ c.sys.sleepers.max

theorem boot_reserved (me : Tid) : Reserved (boot me) where
  inv := ⟨_, _, _, boot_conserved me⟩
  runqueue := by simp [boot, ThreadSystem.threadBootstrap, Queue.qCreate]
  sleepers := .inl ⟨rfl, Nat.le_refl _⟩

theorem Reserved.takes {act : Act} (h : Reserved c) (htakes : act.Takes c d) :
    Reserved d := by
  obtain ⟨hqueue, hsleepers⟩ := htakes.room
  have hinv := h.inv.step htakes.step
  by_cases hfork : ∃ newguy, act = .fork newguy
  · obtain ⟨newguy, rfl⟩ := hfork
    have hroomy := (ThreadSystem.threadFork_room newguy c.sys).post_of_ok htakes.run_true
    have hnum : d.sys.numthreads = c.sys.numthreads + 1 := by
      obtain ⟨_, _, _, hd⟩ := hinv
      obtain ⟨_, _, _, hc⟩ := h.inv
      rw [hc.counted, hd.counted, htakes.lives]
      exact Finset.card_insert_of_notMem htakes.allowed.2.1
    refine ⟨hinv, ?_, .inr ?_⟩
    · rw [hnum]
      exact Nat.le_trans (Nat.le_max_right _ _) hroomy.runqueue
    · rw [hnum]
      exact Nat.le_trans (Nat.le_max_right _ _) hroomy.sleepers
  · have hnum := htakes.numthreads_le h.inv fun newguy heq => hfork ⟨newguy, heq⟩
    refine ⟨hinv, ?_, ?_⟩
    · exact Nat.le_trans hnum (Nat.le_trans h.runqueue hqueue)
    · have := h.sleepers
      omega

/-- A run in which every `thread_fork` finds memory. -/
abbrev Runs : Config → Config → Prop :=
  Relation.ReflTransGen fun c d => ∃ act : Act, act.Takes c d

theorem Runs.reserved (hrun : Runs (boot me) c) : Reserved c := by
  refine invariant_of_steps Reserved hrun (boot_reserved me) ?_
  rintro before next hbefore ⟨act, htakes⟩
  exact hbefore.takes htakes

end Config

namespace ThreadSystem

/-! Calls that find no memory. -/

section Starved

variable {s : ThreadSystem} {ready asleep dead : List Tid}

theorem Lists.makeRunnable_starved (hlists : Lists s ready asleep dead) (t : Tid) :
    (ThreadSystem.makeRunnable false t).wp
      (fun _ next => Lists next (ready ++ [t]) asleep dead ∧
        next = { s with runqueue := next.runqueue } ∧
        next.runqueue.size = s.runqueue.size ∧ ready.length + 1 < s.runqueue.size)
      (fun _ _ => ready.length + 1 = s.runqueue.size) (fun _ => False) s := by
  simp only [ThreadSystem.makeRunnable, onRunqueue, ↓Prog.wp_zoom]
  refine Prog.wp_mono (hlists.runqueue.qAddtail_starved t) ?_ (fun _ _ h => h)
    (fun _ h => h)
  rintro _ q ⟨hq, hsize, hroom⟩
  exact ⟨⟨hq, hlists.sleepers, hlists.zombies⟩, trivial, hsize, hroom⟩

theorem mustInsert_starved {body : Op Unit} {post : Unit → ThreadSystem → Prop}
    {full : Prop} (hbody : body.wp post (fun _ _ => full) (fun _ => False) s)
    (reason : Fault) :
    (mustInsert reason body).wp post (fun _ _ => full) (fun _ => full) s := by
  simp only [mustInsert, ↓Prog.wp_bind, ↓Prog.wp_attempt]
  exact Prog.wp_mono hbody (fun _ _ h => h) (fun _ _ h => h) (fun _ h => h.elim)

/-- The container that `mi_switch` puts the outgoing thread into has a cell for
it. -/
def hasRoom (s : ThreadSystem) (ready asleep dead : List Tid) : ThreadState → Prop
  | .ready => ready.length + 1 < s.runqueue.size
  | .sleep => asleep.length < s.sleepers.max
  | .zomb => dead.length < s.zombies.max

theorem Lists.miSwitch_starved (hlists : Lists s ready asleep dead)
    (hcur : s.curthread = some cur) (nextstate : ThreadState) (resume : Resume) :
    (ThreadSystem.miSwitch false nextstate resume).ReturnsIff
      (hasRoom s ready asleep dead nextstate) s := by
  simp only [ThreadSystem.miSwitch, hcur, setThread, Prog.ReturnsIff, ↓Prog.wp_bind,
    ↓Prog.wp_modify, ↓Prog.wp_read]
  apply mustInsert_starved
  cases nextstate with
  | ready =>
      have hmid : Lists { s with
          thread := Function.update s.thread cur
            { s.thread cur with tPcb := resume }
          curthread := none } ready asleep dead :=
        ⟨hlists.runqueue, hlists.sleepers, hlists.zombies⟩
      refine Prog.wp_mono (hmid.makeRunnable_starved cur) ?_ ?_ (fun _ h => h)
      · rintro _ next ⟨-, -, -, hroom⟩
        exact hroom
      · intro _ _ hfull hroom
        exact Nat.ne_of_lt hroom hfull
  | sleep =>
      simp only [onSleepers, ↓Prog.wp_zoom]
      refine Prog.wp_mono (hlists.sleepers.arrayAdd_starved cur) ?_ ?_ (fun _ h => h)
      · rintro _ a ⟨-, hroom⟩
        exact hroom
      · intro _ _ hfull hroom
        exact Nat.ne_of_lt hroom hfull
  | zomb =>
      simp only [onZombies, ↓Prog.wp_zoom]
      refine Prog.wp_mono (hlists.zombies.arrayAdd_starved cur) ?_ ?_ (fun _ h => h)
      · rintro _ a ⟨-, hroom⟩
        exact hroom
      · intro _ _ hfull hroom
        exact Nat.ne_of_lt hroom hfull

/-- Every thread that the scan wakes has to find a cell of the run queue. -/
theorem Lists.wakeupScan_starved {kept : List Tid} (addr : SleepAddr) (rest : List Tid)
    (hlists : Lists s ready (kept ++ rest) dead) :
    (ThreadSystem.wakeupScan false addr rest.length kept.length).ReturnsIff
      (ready.length + (rest.filter (wakes s addr)).length < s.runqueue.size) s := by
  induction rest generalizing s ready kept with
  | nil =>
      have hlen := hlists.runqueue.length_lt
      simpa [ThreadSystem.wakeupScan] using hlen
  | cons t rest ih =>
      have hnum : s.sleepers.num = (kept ++ t :: rest).length :=
        hlists.sleepers.num_eq
      have hlt : kept.length < (kept ++ t :: rest).length := by simp
      have hget : (kept ++ t :: rest)[kept.length] = t := by simp
      simp only [ThreadSystem.wakeupScan, List.length_cons, onSleepers,
        KArray.arrayGetnum, Prog.ReturnsIff, ↓Prog.wp_bind, ↓Prog.wp_zoom,
        ↓Prog.wp_read, ↓Prog.wp_get, ↓Prog.wp_ite, hnum, if_pos hlt]
      refine Prog.wp_mono (hlists.sleepers.arrayGetguy hlt) ?_ (fun _ _ h => h)
        (fun _ h => h)
      rintro guy a ⟨rfl, rfl⟩
      simp only [hget]
      split
      case isTrue haddr =>
        have hwakes : wakes s addr t = true := by simp [wakes, haddr]
        refine Prog.wp_mono (hlists.sleepers.arrayRemove hlt) ?_ (fun _ _ h => h)
          (fun _ h => h)
        intro _ sleepers hsleepers
        rw [List.eraseIdx_append_of_length_le (Nat.le_refl _),
          Nat.sub_self, List.eraseIdx_cons_zero] at hsleepers
        have hmid : Lists { s with sleepers := sleepers } ready
            (kept ++ rest) dead :=
          ⟨hlists.runqueue, hsleepers, hlists.zombies⟩
        refine Prog.wp_mono (mustInsert_starved (hmid.makeRunnable_starved t) _) ?_ ?_ ?_
        · rintro _ next ⟨hnext, heq, hsize, -⟩
          have hfun : wakes next addr = wakes s addr := by
            funext u
            rw [heq]
            rfl
          have hscan := ih hnext
          rw [hfun, hsize, List.length_append, List.length_singleton] at hscan
          have hcount : ready.length + ((t :: rest).filter (wakes s addr)).length =
              ready.length + 1 + (rest.filter (wakes s addr)).length := by
            simp only [List.filter_cons, hwakes, if_true, List.length_cons]
            omega
          rw [hcount]
          exact hscan
        · intro _ _ hfull hroom
          simp [hwakes] at hroom
          simp at hfull
          omega
        · intro _ hfull hroom
          simp [hwakes] at hroom
          simp at hfull
          omega
      case isFalse haddr =>
        have hwakes : wakes s addr t = false := by simp [wakes, haddr]
        have hlists' : Lists s ready ((kept ++ [t]) ++ rest) dead := by
          simpa using hlists
        have hfilter : (t :: rest).filter (wakes s addr) = rest.filter (wakes s addr) := by
          simp [hwakes]
        have hscan := ih hlists'
        rw [List.length_append, List.length_singleton] at hscan
        rw [hfilter]
        exact hscan

theorem Lists.threadWakeup_starved (hlists : Lists s ready asleep dead)
    (addr : SleepAddr) :
    (ThreadSystem.threadWakeup false addr).ReturnsIff
      (ready.length + (asleep.filter (wakes s addr)).length < s.runqueue.size) s := by
  have hstart : Lists s ready ([] ++ asleep) dead := hlists
  have hscan := hstart.wakeupScan_starved addr asleep
  simp only [ThreadSystem.threadWakeup, onSleepers, KArray.arrayGetnum, Prog.ReturnsIff,
    ↓Prog.wp_bind, ↓Prog.wp_zoom, ↓Prog.wp_read, hlists.sleepers.num_eq]
  exact hscan

theorem Lists.wakeupHeadScan_starved {kept : List Tid} (addr : SleepAddr) (head : Tid)
    (rest : List Tid) (hlists : Lists s ready (kept ++ rest) dead) :
    (ThreadSystem.wakeupHeadScan false addr head rest.length kept.length).ReturnsIff
      (ready.length + (rest.find? (wakesHead s addr head)).toList.length <
        s.runqueue.size) s := by
  induction rest generalizing kept with
  | nil =>
      have hlen := hlists.runqueue.length_lt
      simpa [ThreadSystem.wakeupHeadScan] using hlen
  | cons t rest ih =>
      have hlt : kept.length < (kept ++ t :: rest).length := by simp
      have hget : (kept ++ t :: rest)[kept.length] = t := by simp
      simp only [ThreadSystem.wakeupHeadScan, List.length_cons, onSleepers,
        Prog.ReturnsIff, ↓Prog.wp_bind, ↓Prog.wp_zoom, ↓Prog.wp_get, ↓Prog.wp_ite]
      refine Prog.wp_mono (hlists.sleepers.arrayGetguy hlt) ?_ (fun _ _ h => h)
        (fun _ h => h)
      rintro guy a ⟨rfl, rfl⟩
      simp only [hget]
      split
      case isTrue hpick =>
        have hwakes : wakesHead s addr head t = true := by
          simp [wakesHead, wakes, hpick]
        have hfind : ((t :: rest).find? (wakesHead s addr head)).toList.length = 1 := by
          simp [hwakes]
        rw [hfind]
        refine Prog.wp_mono (hlists.sleepers.arrayRemove hlt) ?_ (fun _ _ h => h)
          (fun _ h => h)
        intro _ sleepers hsleepers
        rw [List.eraseIdx_append_of_length_le (Nat.le_refl _),
          Nat.sub_self, List.eraseIdx_cons_zero] at hsleepers
        have hmid : Lists { s with sleepers := sleepers } ready
            (kept ++ rest) dead :=
          ⟨hlists.runqueue, hsleepers, hlists.zombies⟩
        refine Prog.wp_mono (mustInsert_starved (hmid.makeRunnable_starved t) _) ?_ ?_ ?_
        · rintro _ next ⟨-, -, -, hroom⟩
          exact hroom
        · intro _ _ hfull hroom
          exact Nat.ne_of_lt hroom hfull
        · intro _ hfull hroom
          exact Nat.ne_of_lt hroom hfull
      case isFalse hpick =>
        have hwakes : wakesHead s addr head t = false := by
          rw [Bool.eq_false_iff]
          simpa [wakesHead, wakes] using hpick
        have hlists' : Lists s ready ((kept ++ [t]) ++ rest) dead := by
          simpa using hlists
        have hfind : (t :: rest).find? (wakesHead s addr head) =
            rest.find? (wakesHead s addr head) := by
          simp [hwakes]
        have hscan := ih hlists'
        rw [List.length_append, List.length_singleton] at hscan
        rw [hfind]
        exact hscan

theorem Lists.threadWakeupHead_starved (hlists : Lists s ready asleep dead)
    (addr : SleepAddr) (hcv : Queue.qRemhead cvQueue = .ok head waiting) :
    (ThreadSystem.threadWakeupHead false addr cvQueue).ReturnsIff
      (ready.length + (asleep.find? (wakesHead s addr head)).toList.length <
        s.runqueue.size) s := by
  have hstart : Lists s ready ([] ++ asleep) dead := hlists
  have hscan := hstart.wakeupHeadScan_starved addr head asleep
  simp only [ThreadSystem.threadWakeupHead, hcv, onSleepers, KArray.arrayGetnum,
    Prog.ReturnsIff, ↓Prog.wp_bind, ↓Prog.wp_zoom, ↓Prog.wp_read,
    hlists.sleepers.num_eq, ↓Prog.wp_pure]
  exact hscan

theorem Lists.threadSleep_starved (hlists : Lists s ready asleep dead)
    (hcur : s.curthread = some cur) (addr : SleepAddr) :
    (ThreadSystem.threadSleep false addr).ReturnsIff
      (asleep.length < s.sleepers.max) s := by
  simp only [ThreadSystem.threadSleep, Prog.ReturnsIff, ↓Prog.wp_bind, ↓Prog.wp_read]
  rw [hcur]
  simp only [setThread, ↓Prog.wp_bind, ↓Prog.wp_modify]
  have hmid := hlists.withThread (Function.update s.thread cur
    { s.thread cur with tSleepaddr := some addr })
  exact hmid.miSwitch_starved hcur .sleep .threadSleep

theorem Lists.threadExit_starved (hlists : Lists s ready asleep dead)
    (hcur : s.curthread = some cur) (hpos : 0 < s.numthreads) :
    (ThreadSystem.threadExit false).ReturnsIff (dead.length < s.zombies.max) s := by
  simp only [ThreadSystem.threadExit, Prog.ReturnsIff, ↓Prog.wp_bind, ↓Prog.wp_read]
  rw [hcur]
  simp only [setThread, ↓Prog.wp_bind, ↓Prog.wp_read, ↓Prog.wp_modify,
    ↓Prog.wp_assert, if_pos hpos]
  have hmid : Lists { s with
      thread := Function.update s.thread cur
        { s.thread cur with tVmspace := none, tCwd := none }
      numthreads := s.numthreads - 1 } ready asleep dead :=
    ⟨hlists.runqueue, hlists.sleepers, hlists.zombies⟩
  exact hmid.miSwitch_starved hcur .zomb .threadExit

end Starved

end ThreadSystem

namespace Act

/-- The calls that reach `make_runnable` outside `thread_fork`. -/
def MakesRunnable : Act → Prop
  | .yield => True
  | .wakeup _ => True
  | .wakeupHead _ _ => True
  | _ => False

/-- The call would put every one of the `numthreads` threads into a run queue
of that many cells, of which one must stay unused. -/
def Crowds (c : Config) (act : Act) : Prop :=
  c.sys.numthreads = c.sys.runqueue.size ∧
    match act with
    | .yield => c.sys.curthread.isSome = true ∧ c.sys.sleepers.contents = []
    | .wakeup addr => c.sys.curthread = none ∧
        ∀ t ∈ c.sys.sleepers.contents, ThreadSystem.wakes c.sys addr t = true
    | .wakeupHead addr cvQueue => c.sys.curthread = none ∧
        ∃ head, (Queue.qRemhead cvQueue).returned = some head ∧
          c.sys.sleepers.contents = [head] ∧ ThreadSystem.wakes c.sys addr head = true
    | _ => False

end Act

namespace Config

open ThreadSystem

theorem Reserved.yield_iff (h : Reserved c) :
    (∃ next, Act.yield.run false c.sys = .ok () next) ↔ ¬Act.yield.Crowds c := by
  obtain ⟨ready, asleep, dead, hc⟩ := h.inv
  have hnum := hc.numthreads_eq
  have hsize := h.runqueue
  have hlen := hc.lists.runqueue.length_lt
  simp only [Act.Crowds, hc.lists.sleepers.contents_eq]
  cases hcur : c.sys.curthread with
  | none =>
      have hrun : Act.yield.run false c.sys = .ok () c.sys := by
        simp [Act.run, threadYield, miSwitch, bind, Prog.andThen, Prog.read, hcur]
        rfl
      exact ⟨fun _ => by simp, fun _ => ⟨_, hrun⟩⟩
  | some cur =>
      rw [hcur, Option.toList_some, List.length_singleton] at hnum
      refine (hc.lists.miSwitch_starved hcur .ready .threadYield).exists_unit_iff.trans ?_
      simp only [hasRoom, Option.isSome_some, true_and, ← List.length_eq_zero_iff]
      omega

theorem Reserved.wakeup_iff (h : Reserved c) (addr : SleepAddr) :
    (∃ next, (Act.wakeup addr).run false c.sys = .ok () next) ↔
      ¬(Act.wakeup addr).Crowds c := by
  obtain ⟨ready, asleep, dead, hc⟩ := h.inv
  have hnum := hc.numthreads_eq
  have hsize := h.runqueue
  have hsome := List.length_filter_le (wakes c.sys addr) asleep
  refine (hc.lists.threadWakeup_starved addr).exists_unit_iff.trans ?_
  simp only [Act.Crowds, hc.lists.sleepers.contents_eq,
    ← List.length_filter_eq_length_iff]
  cases hcur : c.sys.curthread with
  | none =>
      rw [hcur, Option.toList_none, List.length_nil] at hnum
      simp only [true_and]
      omega
  | some cur =>
      rw [hcur, Option.toList_some, List.length_singleton] at hnum
      simp only [reduceCtorEq, false_and, and_false, not_false_eq_true, iff_true]
      omega

theorem Reserved.wakeupHead_iff (h : Reserved c) (addr : SleepAddr)
    (hcv : Queue.qRemhead cvQueue = .ok head waiting) :
    (∃ next, (Act.wakeupHead addr cvQueue).run false c.sys = .ok () next) ↔
      ¬(Act.wakeupHead addr cvQueue).Crowds c := by
  obtain ⟨ready, asleep, dead, hc⟩ := h.inv
  have hnum := hc.numthreads_eq
  have hsize := h.runqueue
  have hlen := hc.lists.runqueue.length_lt
  have hwoken : ((Act.wakeupHead addr cvQueue).run false).ReturnsIff
      (ready.length + (asleep.find? (wakesHead c.sys addr head)).toList.length <
        c.sys.runqueue.size) c.sys := by
    simp only [Act.run, Prog.ReturnsIff, ↓Prog.wp_bind, ↓Prog.wp_pure]
    exact hc.lists.threadWakeupHead_starved addr hcv
  refine hwoken.exists_unit_iff.trans ?_
  simp only [Act.Crowds, hc.lists.sleepers.contents_eq, hcv, Result.returned,
    Option.some.injEq, exists_eq_left']
  constructor
  · rintro hroom ⟨hfull, hidle, rfl, hwakes⟩
    simp [wakesHead, hwakes] at hroom
    simp [hidle] at hnum
    omega
  · intro hcrowd
    cases hfind : asleep.find? (wakesHead c.sys addr head) with
    | none => simpa using hlen
    | some t =>
        have hpick := List.find?_some hfind
        simp only [wakesHead, Bool.and_eq_true, beq_iff_eq] at hpick
        obtain ⟨hwakes, rfl⟩ := hpick
        have hpos := List.length_pos_of_mem (List.mem_of_find?_eq_some hfind)
        simp only [Option.toList_some, List.length_singleton]
        -- a full queue leaves room for one sleeper only, and that one is the head
        by_contra hfull
        apply hcrowd
        refine ⟨by omega, ?_, ?_, hwakes⟩
        · rw [← Option.toList_eq_nil_iff, ← List.length_eq_zero_iff]
          omega
        · obtain ⟨u, hu⟩ := List.length_eq_one_iff.mp (show asleep.length = 1 by omega)
          rw [hu] at hfind
          have hmem := List.mem_of_find?_eq_some hfind
          rw [hu, List.mem_singleton.mp hmem]

/-- In every state that a run reaches, a call of `make_runnable` outside
`thread_fork` does without memory unless it fills the run queue with all the
threads there are and the queue has just as many cells. -/
theorem runqueue_reserve_iff (me : Tid) (hrun : Runs (boot me) c) (act : Act)
    (hmakes : act.MakesRunnable) (hallowed : act.Allowed c) :
    (∃ next, act.run false c.sys = .ok () next) ↔ ¬act.Crowds c := by
  have h := hrun.reserved
  cases act with
  | yield => exact h.yield_iff
  | wakeup addr => exact h.wakeup_iff addr
  | wakeupHead addr cvQueue =>
      obtain ⟨head, hhead⟩ := Option.isSome_iff_exists.mp hallowed
      exact h.wakeupHead_iff addr (Result.eq_ok_of_returned cvQueue hhead)
  | fork newguy => cases hmakes
  | sleep addr => cases hmakes
  | exit => cases hmakes
  | exorcise => cases hmakes
  | dispatch => cases hmakes
  | other t vmspace cwd => cases hmakes

/-- The first thread after `k` forks. -/
def forked : Nat → Config
  | 0 => boot 0
  | k + 1 => {
      sys := (threadFork true (k + 1) (forked k).sys).stateD (forked k).sys
      live := insert (k + 1) (forked k).live }

theorem forked_conserved (k : Nat) :
    Runs (boot 0) (forked k) ∧ ∃ ready, Conserved (forked k) ready [] [] ∧
      (forked k).sys.curthread = some 0 ∧ (forked k).live = Finset.range (k + 1) := by
  induction k with
  | zero => exact ⟨.refl, [], boot_conserved 0, rfl, rfl⟩
  | succ k ih =>
      obtain ⟨hrun, ready, hc, hcur, hlive⟩ := ih
      obtain ⟨_, next, hok, hlists, hsame, hnum, hthread⟩ :=
        (hc.lists.threadFork (k + 1)).exists_ok
      have hnew : k + 1 ∉ (forked k).live := by simp [hlive]
      have hforked : forked (k + 1) = ⟨next, insert (k + 1) (forked k).live⟩ := by
        rw [forked, hok]
        rfl
      rw [hforked]
      refine ⟨hrun.tail ⟨.fork (k + 1), ⟨⟨by simp [hcur], hnew, ?_⟩, ⟨true, hok⟩, rfl⟩⟩,
        _, hc.fork hnew (by simp) hlists hsame hnum hthread, hsame.trans hcur, ?_⟩
      · rw [hc.lists.zombies.contents_eq]
        simp
      · rw [hlive, ← Finset.range_add_one]

/-- Two threads: the first one yields and finds room. -/
theorem runqueue_reserve_two_threads :
    ∃ next, Act.yield.run false (forked 1).sys = .ok () next :=
  (runqueue_reserve_iff 0 (forked_conserved 1).1 .yield trivial trivial).mpr
    (by rintro ⟨hfull, -⟩; revert hfull; decide)

/-- With 31 forks the queue's 32 cells hold 31 threads, and the running
thread, the 32nd, cannot yield without memory. -/
theorem runqueue_reserve_short :
    Runs (boot 0) (forked 31) ∧
      Act.yield.run false (forked 31).sys = .panic .miSwitchInsert := by
  refine ⟨(forked_conserved 31).1, Result.eq_panic_of_stopped ?_⟩
  decide +kernel

/-! The two arrays. -/

theorem Reserved.sleep_iff (h : Reserved c) (hcur : c.sys.curthread = some cur)
    (addr : SleepAddr) :
    (∃ next, (Act.sleep addr).run false c.sys = .ok () next) ↔ c.sys.sleepers.max ≠ 0 := by
  obtain ⟨ready, asleep, dead, hc⟩ := h.inv
  have hnum := hc.numthreads_eq
  have hsleepers := h.sleepers
  have hmax := hc.lists.sleepers.num_le_max
  rw [hc.lists.sleepers.num_eq] at hmax
  rw [hcur, Option.toList_some, List.length_singleton] at hnum
  refine (hc.lists.threadSleep_starved hcur addr).exists_unit_iff.trans ?_
  omega

theorem Reserved.exit_iff (h : Reserved c) (hcur : c.sys.curthread = some cur) :
    (∃ next, Act.exit.run false c.sys = .ok () next) ↔
      c.sys.zombies.contents.length < c.sys.zombies.max := by
  obtain ⟨ready, asleep, dead, hc⟩ := h.inv
  have hnum := hc.numthreads_eq
  rw [hcur, Option.toList_some, List.length_singleton] at hnum
  rw [hc.lists.zombies.contents_eq]
  exact (hc.lists.threadExit_starved hcur (by omega)).exists_unit_iff

end Config

namespace Act

open ThreadSystem

/-- The calls that reach `array_add` in `mi_switch`. -/
def AddsToArray : Act → Prop
  | .sleep _ => True
  | .exit => True
  | _ => False

/-- What has to be true before a call for the reservations to hold: no thread
sleeps before the first fork; a fork finds, or makes, room for the zombies not
yet disposed of as well as for the threads; and no thread exits while the array
of the zombies has no cells, before the first fork or after `exorcise` has
freed them. -/
def KeepsReserve (c : Config) : Act → Prop
  | .fork _ => c.sys.zombies.num + c.sys.numthreads + 1 ≤
      KArray.growMax (c.sys.numthreads + 1) (c.sys.numthreads + 1) c.sys.zombies.max
  | .sleep _ => c.sys.sleepers.max ≠ 0
  | .exit => c.sys.zombies.max ≠ 0
  | _ => True

/-- What the calls other than `thread_fork` and `thread_exit` do to the zombies. -/
theorem Takes.zombies_cleared {act : Act} (htakes : act.Takes c d)
    (hfork : ∀ newguy, act ≠ .fork newguy) (hexit : act ≠ .exit) :
    d.sys.zombies = c.sys.zombies ∨ Cleared c.sys.zombies d.sys.zombies := by
  have hrun := htakes.run_true
  have hlasts := zombies_last c.sys.zombies
  have hkept : (act.run true).Preserves (fun s => s.zombies = c.sys.zombies) →
      d.sys.zombies = c.sys.zombies ∨ Cleared c.sys.zombies d.sys.zombies :=
    fun hpreserves => .inl (hpreserves _ _ _ rfl hrun)
  cases act with
  | fork newguy => exact absurd rfl (hfork newguy)
  | exit => exact absurd rfl hexit
  | yield => exact hkept (hlasts.miSwitch true .ready .threadYield fun heq => by cases heq)
  | sleep addr => exact hkept (hlasts.threadSleep true addr)
  | wakeup addr => exact hkept (hlasts.threadWakeup true addr)
  | wakeupHead addr cvQueue =>
      exact hkept (.bind (hlasts.threadWakeupHead true addr cvQueue) fun _ => .ret ())
  | other t vmspace cwd =>
      exact hkept (hlasts.setThread t fun u => { u with tVmspace := vmspace, tCwd := cwd })
  | exorcise => exact .inr ((exorcise_room c.sys).post_of_ok hrun).2.2
  | dispatch => exact ((dispatch_room c.sys).post_of_ok hrun).2.2

end Act

namespace Config

open ThreadSystem

/-- A run whose calls all keep the reservations. -/
abbrev CarefulRuns : Config → Config → Prop :=
  Relation.ReflTransGen fun c d => ∃ act : Act, act.KeepsReserve c ∧ act.Takes c d

/-- Unless it has no cells at all, the array has one for every zombie to come. -/
def ZombiesReserved (c : Config) : Prop :=
  c.sys.zombies.max = 0 ∨ c.sys.numthreads + c.sys.zombies.num ≤ c.sys.zombies.max

theorem ZombiesReserved.takes {act : Act} (hzombies : ZombiesReserved c)
    (hreserved : Reserved c) (hkeeps : act.KeepsReserve c) (htakes : act.Takes c d) :
    ZombiesReserved d := by
  have hinv := hreserved.inv
  obtain ⟨ready, asleep, dead, h⟩ := hinv
  have hrun := htakes.run_true
  by_cases hfork : ∃ newguy, act = .fork newguy
  · obtain ⟨newguy, rfl⟩ := hfork
    have hroomy := (threadFork_room newguy c.sys).post_of_ok hrun
    obtain ⟨hlists, -, hnum, -⟩ := (h.lists.threadFork newguy).post_of_ok hrun
    have hroom := hroomy.zombies
    simp only [Act.KeepsReserve, h.lists.zombies.num_eq] at hkeeps
    right
    rw [hlists.zombies.num_eq, hnum]
    omega
  · by_cases hexit : act = .exit
    · subst hexit
      obtain ⟨cur, hcur⟩ := Option.isSome_iff_exists.mp htakes.allowed
      have hcount := h.numthreads_eq
      rw [hcur, Option.toList_some, List.length_singleton] at hcount
      obtain ⟨hlists, -, hnum, -⟩ := (h.lists.threadExit hcur (by omega)).post_of_ok hrun
      have hroomy : Roomy 0 0 c.sys.zombies.max d.sys :=
        (roomy_lasts.threadExit true fun _ _ ha h =>
          ⟨h.runqueue, h.sleepers, Nat.le_trans h.zombies ha⟩) _ _ _
          ⟨Nat.zero_le _, Nat.zero_le _, Nat.le_refl _⟩ hrun
      have hroom := hroomy.zombies
      have hsome : c.sys.zombies.max ≠ 0 := hkeeps
      right
      rw [ZombiesReserved, h.lists.zombies.num_eq] at hzombies
      rw [hlists.zombies.num_eq, hnum, List.length_append, List.length_singleton]
      omega
    · have hnum := htakes.numthreads_le hreserved.inv fun newguy heq => hfork ⟨newguy, heq⟩
      unfold ZombiesReserved at hzombies ⊢
      rcases htakes.zombies_cleared (fun newguy heq => hfork ⟨newguy, heq⟩) hexit with
        hsame | ⟨hnone, hmax⟩
      · rw [hsame]
        omega
      · rw [hnone]
        omega

theorem CarefulRuns.reserved (hrun : CarefulRuns (boot me) c) :
    Reserved c ∧ ZombiesReserved c := by
  refine invariant_of_steps (fun c => Reserved c ∧ ZombiesReserved c) hrun
    ⟨boot_reserved me, .inl rfl⟩ ?_
  rintro before next ⟨hreserved, hzombies⟩ ⟨act, hkeeps, htakes⟩
  exact ⟨hreserved.takes htakes, hzombies.takes hreserved hkeeps htakes⟩

/-- In every run whose calls keep the reservations, a thread goes to sleep and
exits without memory. -/
theorem arrays_reserve (me : Tid) (hrun : CarefulRuns (boot me) c) (act : Act)
    (hadds : act.AddsToArray) (hallowed : act.Allowed c) (hkeeps : act.KeepsReserve c) :
    ∃ next, act.run false c.sys = .ok () next := by
  obtain ⟨hreserved, hzombies⟩ := hrun.reserved
  cases act with
  | sleep addr =>
      obtain ⟨cur, hcur⟩ := Option.isSome_iff_exists.mp hallowed
      exact (hreserved.sleep_iff hcur addr).mpr hkeeps
  | exit =>
      obtain ⟨cur, hcur⟩ := Option.isSome_iff_exists.mp hallowed
      obtain ⟨ready, asleep, dead, h⟩ := hreserved.inv
      have hcount := h.numthreads_eq
      rw [hcur, Option.toList_some, List.length_singleton] at hcount
      rw [hreserved.exit_iff hcur, h.lists.zombies.contents_eq]
      rw [ZombiesReserved, h.lists.zombies.num_eq] at hzombies
      have hsome : c.sys.zombies.max ≠ 0 := hkeeps
      omega
  | fork newguy => cases hadds
  | yield => cases hadds
  | wakeup addr => cases hadds
  | wakeupHead addr cvQueue => cases hadds
  | exorcise => cases hadds
  | dispatch => cases hadds
  | other t vmspace cwd => cases hadds

/-- After one fork the first thread can exit. -/
theorem arrays_reserve_after_fork :
    ∃ next, Act.exit.run false (forked 1).sys = .ok () next := by
  have hforked : (Act.fork 1).Takes (boot 0) (forked 1) :=
    ⟨by decide, ⟨true, rfl⟩, rfl⟩
  have hroom : (Act.fork 1).KeepsReserve (boot 0) := by
    unfold Act.KeepsReserve
    decide
  exact arrays_reserve 0 (.single ⟨_, hroom, hforked⟩) .exit trivial (by decide)
    (by unfold Act.KeepsReserve; decide)

end Config

namespace Act

/-! Runs on given calls, none of which finds memory outside `thread_fork`. -/

def next (act : Act) (c : Config) : Config where
  sys := (act.run false c.sys).stateD c.sys
  live := act.live c

def runsThrough : List Act → Config → Bool
  | [], _ => true
  | act :: acts, c => decide (act.Allowed c) &&
      ((act.run false c.sys).returned.isSome && runsThrough acts (act.next c))

theorem runs_of_runsThrough (acts : List Act) (c : Config)
    (hrun : runsThrough acts c = true) :
    Config.Runs c (acts.foldl (fun c act => act.next c) c) := by
  induction acts generalizing c with
  | nil => exact .refl
  | cons act acts ih =>
      simp only [runsThrough, Bool.and_eq_true, decide_eq_true_eq] at hrun
      obtain ⟨hallowed, hreturned, hrest⟩ := hrun
      obtain ⟨value, hvalue⟩ := Option.isSome_iff_exists.mp hreturned
      have hok := Result.eq_ok_of_returned c.sys hvalue
      exact .head ⟨act, hallowed, ⟨false, hok⟩, rfl⟩ (ih _ hrest)

end Act

namespace Config

/-- The first thread yields to the second, which forks thirteen others and
yields back. -/
def freedZombies : List Act :=
  [.fork 1, .yield, .dispatch] ++ (List.range 13).map (fun k => .fork (k + 2)) ++
    [.yield, .dispatch]

/-- While the first thread sleeps, each new thread forks its successor and
exits; none of them has run before, so nobody calls `exorcise`. -/
def heapedZombies : List Act :=
  [.fork 1, .sleep 0] ++
    (List.range 6).flatMap (fun k => [.dispatch, .fork (k + 2), .exit]) ++
    [.dispatch, .fork 8]

/-- The boot thread cannot sleep before the first fork; a thread cannot exit
after `exorcise` has freed the 30 cells that fifteen threads had; nor where
the zombies fill the cells that were reserved for the threads alone. -/
theorem arrays_reserve_short :
    (Act.sleep 0).run false (boot 0).sys = .panic .miSwitchInsert ∧
      (∃ c, Runs (boot 0) c ∧ c.sys.curthread = some 0 ∧ c.sys.numthreads = 15 ∧
        Act.exit.run false c.sys = .panic .miSwitchInsert) ∧
      ∃ c, Runs (boot 0) c ∧ c.sys.curthread = some 7 ∧ c.sys.numthreads = 3 ∧
        Act.exit.run false c.sys = .panic .miSwitchInsert := by
  refine ⟨Result.eq_panic_of_stopped (by decide), ?_, ?_⟩
  · exact ⟨_, Act.runs_of_runsThrough freedZombies (boot 0) (by decide),
      by decide +kernel, by decide +kernel,
      Result.eq_panic_of_stopped (by decide +kernel)⟩
  · exact ⟨_, Act.runs_of_runsThrough heapedZombies (boot 0) (by decide),
      by decide +kernel, by decide +kernel,
      Result.eq_panic_of_stopped (by decide +kernel)⟩

end Config

end OS161.Threads
