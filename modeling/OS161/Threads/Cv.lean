import OS161.Threads.Synch

namespace OS161.Threads

open OS161.Data
open OS161.Kern
open OS161.Lib

/-! The queue of a condition variable and the threads asleep on it.  Every
condition variable goes with one lock. -/

variable {kind : SleepAddr → Kind} {assoc : SleepAddr → SleepAddr} {k d : Kernel}

/-- The caller holds the lock that goes with the condition variable. -/
def Call.WithLock (assoc : SleepAddr → SleepAddr) (k : Kernel) : Call → Prop
  | .cvWait cv lock => lock = assoc cv ∧ k.lockDoIHold (assoc cv) = true
  | .cvSignal cv => k.lockDoIHold (assoc cv) = true
  | .cvBroadcast cv => k.lockDoIHold (assoc cv) = true
  | _ => True

/-- The `q_addtail` of `cv_wait` finds memory, and nobody waits when
`cv_broadcast` is called. -/
def Call.Careful (k d : Kernel) : Call → Prop
  | .cvWait cv lock => Kernel.cvJoin true cv lock k = .ok () d
  | .cvBroadcast cv => (k.cvQueue cv).qEmpty = true
  | _ => True

namespace Kernel

/-- The thread that has joined the queue and is not yet asleep.  It still holds
the lock. -/
def joining (assoc : SleepAddr → SleepAddr) (k : Kernel) (cv : SleepAddr) : List Tid :=
  match k.threadAddr (assoc cv) with
  | some t => if k.point t = .queued cv (assoc cv) then [t] else []
  | none => []

structure Queues (kind : SleepAddr → Kind) (assoc : SleepAddr → SleepAddr)
    (k : Kernel) : Prop where
  queue : ∀ cv, kind cv = .cv → (k.cvQueue cv).Rep (k.sleepersOn cv ++ joining assoc k cv)
  locked : ∀ t cv lock, k.point t = .queued cv lock →
    lock = assoc cv ∧ k.threadAddr lock = some t
  lives : ∀ t, k.Joining t → t ∈ k.config.live

theorem joining_none (hfree : k.threadAddr (assoc cv) = none) : joining assoc k cv = [] := by
  simp [joining, hfree]

theorem joining_of_not (hholder : k.threadAddr (assoc cv) = some t)
    (hpoint : k.point t ≠ .queued cv (assoc cv)) : joining assoc k cv = [] := by
  simp [joining, hholder, hpoint]

theorem joining_self (hholder : k.threadAddr (assoc cv) = some t)
    (hpoint : k.point t = .queued cv (assoc cv)) : joining assoc k cv = [t] := by
  simp [joining, hholder, hpoint]

/-- The same holder, who stands in the same `cv_wait` or in none. -/
theorem joining_congr (haddr : d.threadAddr (assoc cv) = k.threadAddr (assoc cv))
    (hpoint : ∀ t, d.point t = .queued cv (assoc cv) ↔ k.point t = .queued cv (assoc cv)) :
    joining assoc d cv = joining assoc k cv := by
  simp only [joining, haddr]
  cases k.threadAddr (assoc cv) with
  | none => rfl
  | some t => simp only [hpoint t]

/-- Nobody enters or leaves a `cv_wait`. -/
theorem queued_update {p : Point} (hnot : ¬ k.Joining t)
    (hp : ∀ cv lock, p ≠ .queued cv lock) (u : Tid) (cv lock : SleepAddr) :
    Function.update k.point t p u = .queued cv lock ↔ k.point u = .queued cv lock := by
  by_cases hu : u = t
  · subst hu
    rw [Function.update_self]
    constructor
    · intro heq
      exact absurd heq (hp cv lock)
    · intro heq
      exact absurd ⟨cv, lock, heq⟩ hnot
  · rw [Function.update_of_ne hu]

/-- A call that leaves the queues, the locks and those in `cv_wait` alone. -/
theorem Queues.of_same (h : Queues kind assoc k) (hqueue : d.cvQueue = k.cvQueue)
    (hsleepers : ∀ cv, kind cv = .cv → d.sleepersOn cv = k.sleepersOn cv)
    (haddr : d.threadAddr = k.threadAddr)
    (hpoint : ∀ t cv lock, d.point t = .queued cv lock ↔ k.point t = .queued cv lock)
    (hlive : ∀ t, k.Joining t → t ∈ d.config.live) : Queues kind assoc d := by
  constructor
  · intro cv hcv
    rw [hqueue, hsleepers cv hcv, joining_congr (by rw [haddr]) fun t => hpoint t cv _]
    exact h.queue cv hcv
  · intro t cv lock hqueued
    rw [haddr]
    exact h.locked t cv lock ((hpoint t cv lock).mp hqueued)
  · intro t ⟨cv, lock, hqueued⟩
    exact hlive t ⟨cv, lock, (hpoint t cv lock).mp hqueued⟩

theorem Queues.acquires (h : Queues kind assoc k) (hnot : ¬ k.Joining t)
    (hfree : k.threadAddr lock = none ∨ k.threadAddr lock = some t)
    (hqueue : d.cvQueue = k.cvQueue) (hsleepers : ∀ a, d.sleepersOn a = k.sleepersOn a)
    (haddr : d.threadAddr = Function.update k.threadAddr lock (some t))
    (hpoint : d.point = Function.update k.point t .user)
    (hlive : d.config.live = k.config.live) : Queues kind assoc d := by
  have hsame : ∀ u cv l, d.point u = .queued cv l ↔ k.point u = .queued cv l := by
    intro u cv l
    rw [hpoint]
    exact queued_update hnot (fun _ _ heq => by cases heq) u cv l
  have hjoining : ∀ cv, joining assoc d cv = joining assoc k cv := by
    intro cv
    by_cases heq : assoc cv = lock
    · have hafter : joining assoc d cv = [] := by
        apply joining_of_not (t := t)
        · rw [haddr, heq, Function.update_self]
        · simp [hpoint]
      have hbefore : joining assoc k cv = [] := by
        rcases hfree with hnone | hmine
        · exact joining_none (heq ▸ hnone)
        · exact joining_of_not (heq ▸ hmine) fun hqueued => hnot ⟨_, _, hqueued⟩
      rw [hafter, hbefore]
    · exact joining_congr (by rw [haddr, Function.update_of_ne heq]) fun u => hsame u cv _
  constructor
  · intro cv hcv
    rw [hqueue, hsleepers, hjoining]
    exact h.queue cv hcv
  · intro u cv l hqueued
    have hbefore := (hsame u cv l).mp hqueued
    obtain ⟨hassoc, hholder⟩ := h.locked u cv l hbefore
    have hne : l ≠ lock := by
      intro heq
      rw [heq] at hholder
      rcases hfree with hnone | hmine
      · rw [hnone] at hholder
        cases hholder
      · rw [hmine] at hholder
        cases hholder
        exact hnot ⟨cv, l, hbefore⟩
    rw [haddr, Function.update_of_ne hne]
    exact ⟨hassoc, hholder⟩
  · intro u ⟨cv, l, hqueued⟩
    rw [hlive]
    exact h.lives u ⟨cv, l, (hsame u cv l).mp hqueued⟩

/-- A thread that gives a lock back is in no `cv_wait`, and whoever is holds
another lock. -/
theorem Queues.releases (h : Queues kind assoc k) (hlock : kind lock = .lock)
    (huser : k.point t = .user) (hreleases : Releases k d t lock) : Queues kind assoc d := by
  cases hreleases with
  | other hother hd =>
      rw [hd]
      exact h.of_same rfl (fun _ _ => rfl) rfl (fun _ _ _ => Iff.rfl) h.lives
  | holder hholds hwakes hd =>
      have hqueue : d.cvQueue = k.cvQueue := by rw [hd]
      have hpoint : d.point = k.point := by rw [hd]
      have haddr : d.threadAddr = Function.update k.threadAddr lock none := by rw [hd]
      have hjoining : ∀ cv, joining assoc d cv = joining assoc k cv := by
        intro cv
        by_cases heq : assoc cv = lock
        · have hafter : joining assoc d cv = [] := by
            apply joining_none
            rw [haddr, heq, Function.update_self]
          have hbefore : joining assoc k cv = [] :=
            joining_of_not (heq ▸ hholds) (by simp [huser])
          rw [hafter, hbefore]
        · exact joining_congr (by rw [haddr, Function.update_of_ne heq])
            fun u => by rw [hpoint]
      constructor
      · intro cv hcv
        have hne := ne_of_kind hcv (by rw [hlock]; decide)
        rw [hqueue, hwakes.sleepers, if_neg hne, hjoining]
        exact h.queue cv hcv
      · intro u cv l hqueued
        rw [hpoint] at hqueued
        obtain ⟨hassoc, hholder⟩ := h.locked u cv l hqueued
        have hne : l ≠ lock := by
          intro heq
          rw [heq, hholds] at hholder
          cases hholder
          rw [huser] at hqueued
          cases hqueued
        rw [haddr, Function.update_of_ne hne]
        exact ⟨hassoc, hholder⟩
      · intro u ⟨cv, l, hqueued⟩
        rw [hpoint] at hqueued
        rw [hwakes.live]
        exact h.lives u ⟨cv, l, hqueued⟩

theorem cvJoin_ok {q : Queue Tid} (hrun : cvJoin true cv lock k = .ok () d)
    (hcur : k.curthread = some t) (hadd : Queue.qAddtail true t (k.cvQueue cv) = .ok () q) :
    d = { k with
      cvQueue := Function.update k.cvQueue cv q
      point := Function.update k.point t (.queued cv lock) } := by
  unfold cvJoin at hrun
  rw [Prog.bind_eq_ok_iff] at hrun
  obtain ⟨_, _, hread, hrun⟩ := hrun
  cases hread
  rw [hcur] at hrun
  simp only at hrun
  rw [Prog.bind_eq_ok_iff] at hrun
  obtain ⟨_, mid, hattempt, hrun⟩ := hrun
  simp only [Prog.attempt, onCvQueue, Prog.zoom, hadd] at hattempt
  cases hattempt
  exact goAt_ok hrun hcur

/-- Nobody else can be in the `cv_wait` of a thread that holds the lock and is
outside. -/
theorem Queues.rep_of_user (h : Queues kind assoc k) (hcv : kind cv = .cv)
    (hholds : k.threadAddr (assoc cv) = some t) (huser : k.point t = .user) :
    (k.cvQueue cv).Rep (k.sleepersOn cv) := by
  have hrep := h.queue cv hcv
  rw [joining_of_not hholds (by simp [huser]), List.append_nil] at hrep
  exact hrep

theorem Queues.joins (h : Queues kind assoc k) (hcv : kind cv = .cv)
    (hcur : k.curthread = some t) (huser : k.point t = .user) (hlive : t ∈ k.config.live)
    (hholds : k.threadAddr (assoc cv) = some t)
    (hrun : cvJoin true cv (assoc cv) k = .ok () d) : Queues kind assoc d := by
  have hreturns : (Queue.qAddtail true t).Returns
      (fun _ q => q.Rep (k.sleepersOn cv ++ [t])) (k.cvQueue cv) :=
    (h.rep_of_user hcv hholds huser).qAddtail t
  obtain ⟨_, q, hadd, hrep⟩ := hreturns.exists_ok
  have hd := cvJoin_ok hrun hcur hadd
  have hqueue : d.cvQueue = Function.update k.cvQueue cv q := by rw [hd]
  have hafter : d.point = Function.update k.point t (.queued cv (assoc cv)) := by rw [hd]
  have haddr : d.threadAddr = k.threadAddr := by rw [hd]
  have hconfig : d.config = k.config := by rw [hd]
  have hsleepers : ∀ a, d.sleepersOn a = k.sleepersOn a := by
    intro a
    rw [sleepersOn, sleepersOn, hconfig]
  constructor
  · intro other hother
    rw [hsleepers, hqueue]
    by_cases heq : other = cv
    · subst heq
      have hself : joining assoc d other = [t] := by
        apply joining_self
        · rw [haddr]
          exact hholds
        · rw [hafter, Function.update_self]
      rw [hself, Function.update_self]
      exact hrep
    · have hsame : joining assoc d other = joining assoc k other := by
        apply joining_congr
        · rw [haddr]
        · intro u
          rw [hafter]
          by_cases hu : u = t
          · subst hu
            simp [huser, Ne.symm heq]
          · simp [hu]
      rw [hsame, Function.update_of_ne heq]
      exact h.queue other hother
  · intro u other lock hqueued
    rw [haddr]
    rw [hafter] at hqueued
    by_cases hu : u = t
    · subst hu
      rw [Function.update_self] at hqueued
      cases hqueued
      exact ⟨rfl, hholds⟩
    · rw [Function.update_of_ne hu] at hqueued
      exact h.locked u other lock hqueued
  · rintro u ⟨other, lock, hqueued⟩
    rw [hconfig]
    rw [hafter] at hqueued
    by_cases hu : u = t
    · rw [hu]
      exact hlive
    · rw [Function.update_of_ne hu] at hqueued
      exact h.lives u ⟨other, lock, hqueued⟩

/-- The thread that has joined the queue goes to sleep behind the others. -/
theorem Queues.waits (h : Queues kind assoc k) (hcv : kind cv = .cv)
    (hlock : kind lock = .lock) (hpoint : k.point t = .queued cv lock)
    (hreleases : Releases k mid t lock) (hsleeps : Sleeps mid d t cv)
    (hd : d = { mid with
      config := d.config
      point := Function.update mid.point t (.inWait cv lock) }) : Queues kind assoc d := by
  obtain ⟨hassoc, hholds⟩ := h.locked t cv lock hpoint
  subst hassoc
  cases hreleases with
  | other hother hmid => exact absurd hholds hother
  | holder hheld hwakes hmid =>
      have hqueue : d.cvQueue = k.cvQueue := by rw [hd, hmid]
      have haddr : d.threadAddr = Function.update k.threadAddr (assoc cv) none := by
        rw [hd, hmid]
      have hafter : d.point = Function.update k.point t (.inWait cv (assoc cv)) := by
        rw [hd, hmid]
      have hlive : d.config.live = k.config.live := hsleeps.live.trans hwakes.live
      constructor
      · intro other hother
        have hne := ne_of_kind hother (by rw [hlock]; decide)
        rw [hqueue, hsleeps.sleepers, hwakes.sleepers, if_neg hne]
        by_cases heq : other = cv
        · subst heq
          have hrep := h.queue other hother
          rw [joining_self hholds hpoint] at hrep
          rw [joining_none (by rw [haddr, Function.update_self]), if_pos rfl,
            List.append_nil]
          exact hrep
        · have hsame : joining assoc d other = joining assoc k other := by
            by_cases hshared : assoc other = assoc cv
            · have hfree : d.threadAddr (assoc other) = none := by
                rw [haddr, hshared, Function.update_self]
              have hheldOther : k.threadAddr (assoc other) = some t := hshared ▸ hholds
              rw [joining_none hfree, joining_of_not hheldOther (by simp [hpoint, Ne.symm heq])]
            · apply joining_congr
              · rw [haddr, Function.update_of_ne hshared]
              · intro u
                rw [hafter]
                by_cases hu : u = t
                · subst hu
                  simp [hpoint, Ne.symm heq]
                · simp [hu]
          rw [if_neg heq, hsame]
          exact h.queue other hother
      · intro u other l hqueued
        have hu : u ≠ t := by
          intro heq
          rw [heq, hafter, Function.update_self] at hqueued
          cases hqueued
        rw [hafter, Function.update_of_ne hu] at hqueued
        obtain ⟨hassoc, hholder⟩ := h.locked u other l hqueued
        have hne : l ≠ assoc cv := by
          intro heq
          rw [heq, hholds] at hholder
          exact hu (Option.some.inj hholder).symm
        rw [haddr, Function.update_of_ne hne]
        exact ⟨hassoc, hholder⟩
      · intro u ⟨other, l, hqueued⟩
        rw [hlive]
        by_cases hu : u = t
        · subst hu
          exact h.lives u ⟨cv, _, hpoint⟩
        · rw [hafter, Function.update_of_ne hu] at hqueued
          exact h.lives u ⟨other, l, hqueued⟩

theorem holder_of_withLock (huser : k.InUser) (hlock : k.lockDoIHold lock = true) :
    ∃ t, k.curthread = some t ∧ k.point t = .user ∧ k.threadAddr lock = some t := by
  obtain ⟨t, hcur, hpoint⟩ := InUser.exists_cur huser
  simp only [lockDoIHold, beq_iff_eq] at hlock
  exact ⟨t, hcur, hpoint, hlock.trans hcur⟩

/-- The head of the queue is the thread that has slept longest. -/
theorem remhead_of_rep {q rest : Queue Tid} {ptrs : List Tid} (hrep : q.Rep ptrs)
    (hhead : Queue.qRemhead q = .ok head rest) : ∃ tail, ptrs = head :: tail ∧ rest.Rep tail := by
  cases ptrs with
  | nil =>
      rw [hrep.qRemhead_nil] at hhead
      cases hhead
  | cons first tail =>
      have hreturns : Queue.qRemhead.Returns
          (fun ptr q => ptr = first ∧ q.Rep tail) q := hrep.qRemhead
      obtain ⟨rfl, hrest⟩ := hreturns.post_of_ok hhead
      exact ⟨tail, rfl, hrest⟩

theorem Queues.signals (h : Queues kind assoc k) (hcv : kind cv = .cv)
    (hholds : k.threadAddr (assoc cv) = some t) (huser : k.point t = .user)
    (hhead : Queue.qRemhead (k.cvQueue cv) = .ok head rest)
    (hlive : d.config.live = k.config.live)
    (hsleepers : ∀ a, d.sleepersOn a =
      if a = cv then (k.sleepersOn a).erase head else k.sleepersOn a)
    (hd : d = { k with
      config := d.config
      cvQueue := Function.update k.cvQueue cv rest }) :
    Queues kind assoc d ∧ d.sleepersOn cv = (k.sleepersOn cv).tail := by
  obtain ⟨tail, hptrs, hrest⟩ := remhead_of_rep (h.rep_of_user hcv hholds huser) hhead
  have hqueue : d.cvQueue = Function.update k.cvQueue cv rest := by rw [hd]
  have hpoint : d.point = k.point := by rw [hd]
  have haddr : d.threadAddr = k.threadAddr := by rw [hd]
  have hjoining : ∀ other, joining assoc d other = joining assoc k other := by
    intro other
    exact joining_congr (by rw [haddr]) fun u => by rw [hpoint]
  have hwoken : d.sleepersOn cv = tail := by
    rw [hsleepers, if_pos rfl, hptrs, List.erase_cons_head]
  refine ⟨⟨?_, ?_, ?_⟩, by rw [hwoken, hptrs, List.tail_cons]⟩
  · intro other hother
    rw [hqueue, hjoining]
    by_cases heq : other = cv
    · subst heq
      rw [hwoken, joining_of_not hholds (by simp [huser]), Function.update_self,
        List.append_nil]
      exact hrest
    · rw [hsleepers, if_neg heq, Function.update_of_ne heq]
      exact h.queue other hother
  · intro u other lock hqueued
    rw [haddr]
    rw [hpoint] at hqueued
    exact h.locked u other lock hqueued
  · intro u ⟨other, lock, hqueued⟩
    rw [hlive]
    rw [hpoint] at hqueued
    exact h.lives u ⟨other, lock, hqueued⟩

theorem Queues.effect {call : Call} (h : Queues kind assoc k) (hinv : k.config.Inv)
    (heffect : Effect kind call k d) (hlock : call.WithLock assoc k)
    (hcareful : call.Careful k d) : Queues kind assoc d := by
  cases heffect with
  | passes hkind hcur hnot hcount =>
      exact h.of_same rfl (fun _ _ => rfl) rfl
        (queued_update hnot fun _ _ heq => by cases heq) h.lives
  | blocks hkind hcur hnot hcount hsleeps hd =>
      refine h.of_same (by rw [hd]) ?_ (by rw [hd]) ?_ ?_
      · intro cv hcv
        have hne := ne_of_kind hcv (by rw [hkind]; decide)
        rw [hsleeps.sleepers, if_neg hne]
      · rw [hd]
        exact queued_update hnot fun _ _ heq => by cases heq
      · rw [hsleeps.live]
        exact h.lives
  | posts hkind hcount hwakes hd =>
      refine h.of_same (by rw [hd]) ?_ (by rw [hd]) (fun _ _ _ => by rw [hd]) ?_
      · intro cv hcv
        have hne := ne_of_kind hcv (by rw [hkind]; decide)
        rw [hwakes.sleepers, if_neg hne]
      · rw [hwakes.live]
        exact h.lives
  | acquires hkind hcur hnot hfree =>
      exact h.acquires hnot hfree rfl (fun _ => rfl) rfl rfl rfl
  | contends hkind hcur hnot hbusy hother hsleeps hd =>
      refine h.of_same (by rw [hd]) ?_ (by rw [hd]) ?_ ?_
      · intro cv hcv
        have hne := ne_of_kind hcv (by rw [hkind]; decide)
        rw [hsleeps.sleepers, if_neg hne]
      · rw [hd]
        exact queued_update hnot fun _ _ heq => by cases heq
      · rw [hsleeps.live]
        exact h.lives
  | releases hkind hcur huser hreleases => exact h.releases hkind huser hreleases
  | joins hcv hkind hcur huser mem hqueue =>
      obtain ⟨rfl, hhold⟩ := hlock
      simp only [lockDoIHold, beq_iff_eq] at hhold
      obtain ⟨ready, asleep, dead, hconserved⟩ := hinv
      exact h.joins hcv hcur huser (hconserved.curthread_live hcur) (hhold.trans hcur)
        hcareful
  | waits hcv hkind hcur hpoint hreleases hsleeps hd =>
      exact h.waits hcv hkind hpoint hreleases hsleeps hd
  | signalsNobody hempty => exact h
  | signals hcv huser hhead hinv hlive hcur hsleepers hd =>
      obtain ⟨t, -, hpoint, hholds⟩ := holder_of_withLock huser hlock
      exact (h.signals hcv hholds hpoint hhead hlive hsleepers hd).1
  | broadcasts hcv huser hwakes hd =>
      obtain ⟨t, -, hpoint, hholds⟩ := holder_of_withLock huser hlock
      have hrep := h.rep_of_user hcv hholds hpoint
      have hempty := hrep.qEmpty_iff.mp hcareful
      refine h.of_same (by rw [hd]) ?_ (by rw [hd]) (fun _ _ _ => by rw [hd]) ?_
      · intro other _
        rw [hwakes.sleepers]
        split
        case isTrue heq => rw [heq, hempty]
        case isFalse => rfl
      · rw [hwakes.live]
        exact h.lives
  | @forks newguy _ _ hnew hinv hlive hcur hsleepers hd =>
      have hnot : ¬ k.Joining newguy := fun hjoining => hnew (h.lives newguy hjoining)
      refine h.of_same (by rw [hd]) (fun cv _ => hsleepers cv) (by rw [hd]) ?_ ?_
      · rw [hd]
        exact queued_update hnot fun _ _ heq => by cases heq
      · intro t hjoining
        rw [hlive]
        exact Finset.mem_insert_of_mem (h.lives t hjoining)
  | exits hcur huser hinv hlive hnone hsleepers hd =>
      refine h.of_same (by rw [hd]) (fun cv _ => hsleepers cv) (by rw [hd])
        (fun _ _ _ => by rw [hd]) ?_
      intro u hjoining
      rw [hlive]
      refine Finset.mem_erase_of_ne_of_mem ?_ (h.lives u hjoining)
      intro heq
      subst heq
      exact not_joining_of_user huser hjoining
  | plain act hinv hlive hcur hsleepers hd =>
      refine h.of_same (by rw [hd]) ?_ (by rw [hd]) (fun _ _ _ => by rw [hd]) ?_
      · intro cv hcv
        exact hsleepers cv (by rw [hcv]; decide)
      · rw [hlive]
        exact h.lives
  | dispatches hidle hinv hlive hcur hnext hsleepers hd =>
      refine h.of_same (by rw [hd]) (fun cv _ => hsleepers cv) (by rw [hd])
        (fun _ _ _ => by rw [hd]) ?_
      rw [hlive]
      exact h.lives

theorem Queues.takes {call : Call} (h : Queues kind assoc k) (hsound : k.Sound kind)
    (htakes : call.Takes kind k d) (hlock : call.WithLock assoc k)
    (hcareful : call.Careful k d) : d.Sound kind ∧ Queues kind assoc d := by
  rcases htakes.effects hsound with hone | ⟨-, mid, hdispatch, hresumes⟩
  · exact ⟨hsound.effect hone, h.effect hsound.inv hone hlock hcareful⟩
  · have hmid := hsound.effect hdispatch
    have hqueues : Queues kind assoc mid := h.effect hsound.inv hdispatch trivial trivial
    cases hresumes with
    | nothing hsame =>
        subst hsame
        exact ⟨hmid, hqueues⟩
    | inP sem hrest =>
        exact ⟨hmid.effect hrest, hqueues.effect hmid.inv hrest trivial trivial⟩
    | inAcquire lock hrest =>
        exact ⟨hmid.effect hrest, hqueues.effect hmid.inv hrest trivial trivial⟩

theorem boot_queues (me : Tid) (initialCount : SleepAddr → Fin (2 ^ 31)) :
    Queues kind assoc (boot me initialCount) where
  queue _ _ := Queue.qCreate_rep (by decide)
  locked _ _ _ hqueued := by cases hqueued
  lives _ hjoining := by
    obtain ⟨cv, lock, hqueued⟩ := hjoining
    cases hqueued

/-- With memory, `cv_signal` comes back. -/
theorem cvSignal_returns (hinv : k.config.Inv) {ptrs : List Tid}
    (hrep : (k.cvQueue cv).Rep ptrs) : ∃ d, Kernel.cvSignal true cv k = .ok () d := by
  obtain ⟨ready, asleep, dead, h⟩ := hinv
  simp only [Kernel.cvSignal, Prog.bind_eq_ok_iff]
  by_cases hempty : (k.cvQueue cv).qEmpty = true
  · exact ⟨k, k, k, rfl, by simp only [hempty, if_true]; rfl⟩
  · cases ptrs with
    | nil => exact absurd (hrep.qEmpty_iff.mpr rfl) hempty
    | cons first tail =>
        have hreturns : Queue.qRemhead.Returns
            (fun ptr q => ptr = first ∧ q.Rep tail) (k.cvQueue cv) := hrep.qRemhead
        obtain ⟨head, rest, hhead, -⟩ := hreturns.exists_ok
        obtain ⟨left, next, hwoken, -⟩ := (h.lists.threadWakeupHead cv hhead).exists_ok
        refine ⟨{ k with
          config := ⟨next, k.config.live⟩
          cvQueue := Function.update k.cvQueue cv left }, k, k, rfl, ?_⟩
        rw [if_neg hempty, wakeupHead, hwoken]

theorem cvBroadcast_returns (hinv : k.config.Inv) (cv : SleepAddr) :
    ∃ d, Kernel.cvBroadcast true cv k = .ok () d := by
  obtain ⟨ready, asleep, dead, h⟩ := hinv
  obtain ⟨_, next, hwoken, -⟩ := (h.lists.threadWakeup cv).exists_ok
  refine ⟨{ k with config := ⟨next, (Act.wakeup cv).live k.config⟩ }, ?_⟩
  simp only [Kernel.cvBroadcast, system, Act.run]
  rw [hwoken]

/-- Runs in which every call on a condition variable is made with its lock
held. -/
def LockedRuns (kind : SleepAddr → Kind) (assoc : SleepAddr → SleepAddr) :
    Kernel → Kernel → Prop :=
  Relation.ReflTransGen fun k d =>
    ∃ call : Call, call.Takes kind k d ∧ call.WithLock assoc k

/-- Such runs in which, besides, every call is careful. -/
def CarefulRuns (kind : SleepAddr → Kind) (assoc : SleepAddr → SleepAddr) :
    Kernel → Kernel → Prop :=
  Relation.ReflTransGen fun k d =>
    ∃ call : Call, call.Takes kind k d ∧ call.WithLock assoc k ∧ call.Careful k d

theorem CarefulRuns.queues (hrun : CarefulRuns kind assoc (boot me initialCount) k) :
    k.Sound kind ∧ Queues kind assoc k := by
  induction hrun with
  | refl => exact ⟨boot_sound me initialCount, boot_queues me initialCount⟩
  | tail _ hstep ih =>
      obtain ⟨call, htakes, hlock, hcareful⟩ := hstep
      exact ih.2.takes ih.1 htakes hlock hcareful

end Kernel

open Kernel

/-- In careful runs the queue of a condition variable lists the threads asleep
on it, for whoever holds the lock; `cv_signal` wakes the first of them and no
other, and `cv_broadcast` wakes them all. -/
theorem queue_lists_sleepers {me : Tid} {initialCount : SleepAddr → Fin (2 ^ 31)}
    {cv : SleepAddr} (hrun : CarefulRuns kind assoc (boot me initialCount) k)
    (hcv : kind cv = .cv) (huser : k.InUser) (hlock : k.lockDoIHold (assoc cv) = true) :
    (k.cvQueue cv).contents = k.sleepersOn cv ∧
    (∃ d, (Call.cvSignal cv).Takes kind k d) ∧
    (∀ d, (Call.cvSignal cv).Takes kind k d →
      d.sleepersOn cv = (k.sleepersOn cv).tail ∧
      ∀ a, a ≠ cv → d.sleepersOn a = k.sleepersOn a) ∧
    (∃ d, (Call.cvBroadcast cv).Takes kind k d) ∧
    (∀ d, (Call.cvBroadcast cv).Takes kind k d → d.sleepersOn cv = []) := by
  obtain ⟨hsound, h⟩ := hrun.queues
  obtain ⟨t, -, hpoint, hholds⟩ := holder_of_withLock huser hlock
  have hrep := h.rep_of_user hcv hholds hpoint
  refine ⟨hrep.contents_eq, ?_, ?_, ?_, ?_⟩
  · obtain ⟨d, hok⟩ := cvSignal_returns hsound.inv hrep
    exact ⟨d, ⟨hcv, huser⟩, true, hok⟩
  · intro d htakes
    rcases htakes.effects hsound with heffect | ⟨hcall, -⟩
    · cases heffect with
      | signalsNobody hempty =>
          have hnobody := hrep.qEmpty_iff.mp hempty
          exact ⟨by rw [hnobody]; rfl, fun _ _ => rfl⟩
      | signals _ _ hhead _ hlive _ hsleepers hd =>
          refine ⟨(h.signals hcv hholds hpoint hhead hlive hsleepers hd).2, ?_⟩
          intro a ha
          rw [hsleepers, if_neg ha]
    · cases hcall
  · obtain ⟨d, hok⟩ := cvBroadcast_returns hsound.inv cv
    exact ⟨d, ⟨hcv, huser⟩, true, hok⟩
  · intro d htakes
    rcases htakes.effects hsound with heffect | ⟨hcall, -⟩
    · cases heffect with
      | broadcasts _ _ hwakes hd => rw [hwakes.sleepers, if_pos rfl]
    · cases hcall

instance (k : Kernel) : (call : Call) → Decidable (call.WithLock assoc k)
  | .cvWait _ _ => inferInstanceAs (Decidable (_ ∧ _ = true))
  | .cvSignal _ => inferInstanceAs (Decidable (_ = true))
  | .cvBroadcast _ => inferInstanceAs (Decidable (_ = true))
  | .P _ | .V _ | .lockAcquire _ | .lockRelease _ | .cvSleep _ _ | .system _ | .dispatch =>
      inferInstanceAs (Decidable True)

/-- The lock is held, and nobody waits for a broadcast. -/
def Call.carefulWithLock (assoc : SleepAddr → SleepAddr) (call : Call) (k : Kernel) : Bool :=
  decide (call.WithLock assoc k) &&
    match call with
    | .cvBroadcast cv => (k.cvQueue cv).qEmpty
    | _ => true

theorem Call.careful_of_check {call : Call} (hcheck : call.carefulWithLock assoc k = true)
    (hok : call.run true k = .ok () d) : call.WithLock assoc k ∧ call.Careful k d := by
  simp only [carefulWithLock, Bool.and_eq_true, decide_eq_true_eq] at hcheck
  refine ⟨hcheck.1, ?_⟩
  cases call with
  | cvWait cv lock => exact hok
  | cvBroadcast cv => exact hcheck.2
  | _ => trivial

/-- A lock at address 5 and a condition variable at address 6. -/
def lockAndCv (addr : SleepAddr) : Kind :=
  if addr = 5 then .lock else if addr = 6 then .cv else .other

/-- Threads 1 and 2 wait, and thread 0 takes the lock. -/
def twoWait : List Call :=
  [.system (.fork 1), .system (.fork 2), .system .yield, .dispatch,
    .lockAcquire 5, .cvWait 6 5, .cvSleep 6 5, .dispatch,
    .lockAcquire 5, .cvWait 6 5, .cvSleep 6 5, .dispatch, .lockAcquire 5]

theorem queue_lists_sleepers_two_wait :
    ∃ k : Kernel, CarefulRuns lockAndCv (fun _ => 5) (boot 0 fun _ => 0) k ∧
      k.sleepersOn 6 = [1, 2] ∧ (k.cvQueue 6).contents = k.sleepersOn 6 ∧
      ∃ d, (Call.cvSignal 6).Takes lockAndCv k d ∧ d.sleepersOn 6 = [2] := by
  have hpasses : Call.runsThrough lockAndCv (Call.carefulWithLock fun _ => 5) twoWait
      (boot 0 fun _ => 0) = true := by decide
  have hrun : CarefulRuns lockAndCv (fun _ => 5) (boot 0 fun _ => 0)
      (twoWait.foldl (fun k call => call.next k) (boot 0 fun _ => 0)) := by
    refine Relation.ReflTransGen.mono ?_ _ _ (Call.runs_of_runsThrough _ _ hpasses)
    intro _ _ ⟨call, hallowed, hcheck, hok⟩
    exact ⟨call, ⟨hallowed, true, hok⟩, Call.careful_of_check hcheck hok⟩
  have hsleepers : (twoWait.foldl (fun k call => call.next k)
      (boot 0 fun _ => 0)).sleepersOn 6 = [1, 2] := by decide
  have hcv : lockAndCv 6 = .cv := rfl
  obtain ⟨hqueue, ⟨d, htakes⟩, hsignal, -⟩ :=
    queue_lists_sleepers hrun hcv (by decide) (by decide)
  refine ⟨_, hrun, hsleepers, hqueue, d, htakes, ?_⟩
  rw [(hsignal d htakes).1, hsleepers]
  rfl

/-- Thread 1 waits, and thread 2 broadcasts; thread 1 comes back and gives the
lock up, thread 2 waits in its turn, and thread 0 takes the lock. -/
def staleHead : List Call :=
  [.system (.fork 1), .system (.fork 2), .system .yield, .dispatch,
    .lockAcquire 5, .cvWait 6 5, .cvSleep 6 5, .dispatch,
    .lockAcquire 5, .cvBroadcast 6, .lockRelease 5, .system .yield, .dispatch,
    .system .yield, .dispatch, .lockRelease 5, .system .yield, .dispatch,
    .lockAcquire 5, .cvWait 6 5, .cvSleep 6 5, .dispatch, .lockAcquire 5]

/-- Its signal finds thread 1 at the head of the queue and leaves thread 2
asleep. -/
theorem signal_lost_after_broadcast :
    ∃ k d : Kernel, LockedRuns lockAndCv (fun _ => 5) (boot 0 fun _ => 0) k ∧
      k.InUser ∧ k.lockDoIHold 5 = true ∧
      k.sleepersOn 6 = [2] ∧ (k.cvQueue 6).contents = [1, 2] ∧
      (Call.cvSignal 6).Takes lockAndCv k d ∧ d.sleepersOn 6 = [2] := by
  have hpasses : Call.runsThrough lockAndCv
      (fun call k => decide (call.WithLock (fun _ => 5) k)) staleHead
      (boot 0 fun _ => 0) = true := by decide
  have hrun : LockedRuns lockAndCv (fun _ => 5) (boot 0 fun _ => 0)
      (staleHead.foldl (fun k call => call.next k) (boot 0 fun _ => 0)) := by
    refine Relation.ReflTransGen.mono ?_ _ _ (Call.runs_of_runsThrough _ _ hpasses)
    intro _ _ ⟨call, hallowed, hcheck, hok⟩
    exact ⟨call, ⟨hallowed, true, hok⟩, of_decide_eq_true hcheck⟩
  have hreturned : ((Call.cvSignal 6).run true (staleHead.foldl (fun k call => call.next k)
      (boot 0 fun _ => 0))).returned = some () := by decide +kernel
  have hok := Result.eq_ok_of_returned (boot 0 fun _ => 0) hreturned
  exact ⟨_, _, hrun, by decide +kernel, by decide +kernel, by decide +kernel,
    by decide +kernel, ⟨by decide +kernel, true, hok⟩, by decide +kernel⟩

end OS161.Threads
