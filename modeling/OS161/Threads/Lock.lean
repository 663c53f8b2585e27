import OS161.Threads.Synch

namespace OS161.Threads

open OS161.Data
open OS161.Kern

/-! Who holds a lock, and who sleeps on it. -/

structure Locks (kind : SleepAddr → Kind) (k : Kernel) : Prop where
  held : ∀ lock t, k.holding lock t = true → k.threadAddr lock = some t
  nobody : ∀ lock, kind lock = .lock → k.threadAddr lock = none → k.sleepersOn lock = []

section Effects

variable {kind : SleepAddr → Kind} {k d : Kernel}

/-- A call that leaves the locks alone, or after which a thread counts as
holding less. -/
theorem Locks.of_same (h : Locks kind k) (haddr : d.threadAddr = k.threadAddr)
    (hholding : ∀ lock t, d.holding lock t = true → k.holding lock t = true)
    (hsleepers : ∀ lock, kind lock = .lock → d.sleepersOn lock = k.sleepersOn lock) :
    Locks kind d := by
  constructor
  · intro lock t hholds
    rw [haddr]
    exact h.held lock t (hholding lock t hholds)
  · intro lock hlock hfree
    rw [haddr] at hfree
    rw [hsleepers lock hlock]
    exact h.nobody lock hlock hfree

theorem holding_of_note (hholds : Kernel.note holding lock t false l u = true) :
    holding l u = true := by
  simp only [Kernel.note] at hholds
  split at hholds
  · cases hholds
  · exact hholds

theorem Locks.acquires (h : Locks kind k)
    (hfree : k.threadAddr lock = none ∨ k.threadAddr lock = some t)
    (haddr : d.threadAddr = Function.update k.threadAddr lock (some t))
    (hholding : d.holding = Kernel.note k.holding lock t true)
    (hsleepers : ∀ a, d.sleepersOn a = k.sleepersOn a) : Locks kind d := by
  constructor
  · intro l u hholds
    rw [hholding] at hholds
    simp only [Kernel.note] at hholds
    rw [haddr]
    by_cases hl : l = lock
    · subst hl
      rw [Function.update_self]
      by_cases hu : u = t
      · rw [hu]
      · -- Whoever held the lock before was the same thread.
        have hbefore : k.holding l u = true := by simpa [hu] using hholds
        have hother := h.held l u hbefore
        rcases hfree with hnone | hmine
        · rw [hnone] at hother
          cases hother
        · rw [← hmine]
          exact hother
    · rw [Function.update_of_ne hl]
      exact h.held l u (by simpa [hl] using hholds)
  · intro l hl hnone
    rw [haddr] at hnone
    by_cases heq : l = lock
    · subst heq
      simp at hnone
    · rw [Function.update_of_ne heq] at hnone
      rw [hsleepers]
      exact h.nobody l hl hnone

theorem Locks.given_back (h : Locks kind k) (hholds : k.threadAddr lock = some t)
    (hwakes : Kernel.Wakes k d lock)
    (haddr : d.threadAddr = Function.update k.threadAddr lock none)
    (hholding : d.holding = Kernel.note k.holding lock t false) : Locks kind d := by
  constructor
  · intro l u hstill
    rw [hholding] at hstill
    have hbefore := h.held l u (holding_of_note hstill)
    have hl : l ≠ lock := by
      intro heq
      subst heq
      rw [hholds] at hbefore
      cases hbefore
      simp [Kernel.note] at hstill
    rw [haddr, Function.update_of_ne hl]
    exact hbefore
  · intro l hl hnone
    rw [hwakes.sleepers]
    by_cases heq : l = lock
    · rw [if_pos heq]
    · rw [haddr, Function.update_of_ne heq] at hnone
      rw [if_neg heq]
      exact h.nobody l hl hnone

theorem Locks.releases (h : Locks kind k) (hreleases : Kernel.Releases k d t lock) :
    Locks kind d := by
  cases hreleases with
  | holder hholds hwakes hd => exact h.given_back hholds hwakes (by rw [hd]) (by rw [hd])
  | other hother hd =>
      rw [hd]
      exact h.of_same rfl (fun _ _ hholds => holding_of_note hholds) fun _ _ => rfl

/-- Only a thread that finds the lock taken goes to sleep on it. -/
theorem Locks.contends (h : Locks kind k) (hbusy : k.threadAddr lock ≠ none)
    (hsleeps : Kernel.Sleeps k d t lock) (haddr : d.threadAddr = k.threadAddr)
    (hholding : d.holding = k.holding) : Locks kind d := by
  constructor
  · intro l u hholds
    rw [hholding] at hholds
    rw [haddr]
    exact h.held l u hholds
  · intro l hl hnone
    rw [haddr] at hnone
    have hne : l ≠ lock := fun heq => hbusy (heq ▸ hnone)
    rw [hsleeps.sleepers, if_neg hne]
    exact h.nobody l hl hnone

theorem Locks.effect {call : Call} (h : Locks kind k) (heffect : Effect kind call k d) :
    Locks kind d := by
  cases heffect with
  | passes hkind hcur hpoint hcount => exact h.of_same rfl (fun _ _ hholds => hholds) fun _ _ => rfl
  | blocks hkind hcur hpoint hcount hsleeps hd =>
      refine h.of_same (by rw [hd]) (fun _ _ hholds => by rwa [hd] at hholds) ?_
      intro lock hlock
      have hne := ne_of_kind hlock (by rw [hkind]; decide)
      rw [hsleeps.sleepers, if_neg hne]
  | posts hkind hcount hwakes hd =>
      refine h.of_same (by rw [hd]) (fun _ _ hholds => by rwa [hd] at hholds) ?_
      intro lock hlock
      have hne := ne_of_kind hlock (by rw [hkind]; decide)
      rw [hwakes.sleepers, if_neg hne]
  | acquires hkind hcur hpoint hfree => exact h.acquires hfree rfl rfl fun _ => rfl
  | contends hkind hcur hpoint hbusy hother hsleeps hd =>
      exact h.contends hbusy hsleeps (by rw [hd]) (by rw [hd])
  | releases hkind hcur huser hreleases => exact h.releases hreleases
  | joins hcv hlock hcur huser mem hqueue =>
      exact h.of_same rfl (fun _ _ hholds => hholds) fun _ _ => rfl
  | waits hcv hlock hcur hpoint hreleases hsleeps hd =>
      refine (h.releases hreleases).of_same (by rw [hd]) (fun _ _ hholds => by rwa [hd] at hholds) ?_
      intro lock hlock
      have hne := ne_of_kind hlock (by rw [hcv]; decide)
      rw [hsleeps.sleepers, if_neg hne]
  | signalsNobody hempty => exact h
  | signals hcv huser hhead hinv hlive hcur hsleepers hd =>
      refine h.of_same (by rw [hd]) (fun _ _ hholds => by rwa [hd] at hholds) ?_
      intro lock hlock
      have hne := ne_of_kind hlock (by rw [hcv]; decide)
      rw [hsleepers, if_neg hne]
  | broadcasts hcv huser hwakes hd =>
      refine h.of_same (by rw [hd]) (fun _ _ hholds => by rwa [hd] at hholds) ?_
      intro lock hlock
      have hne := ne_of_kind hlock (by rw [hcv]; decide)
      rw [hwakes.sleepers, if_neg hne]
  | forks hnew hinv hlive hcur hsleepers hd =>
      exact h.of_same (by rw [hd]) (fun _ _ hholds => by rwa [hd] at hholds)
        fun a _ => hsleepers a
  | exits hcur huser hinv hlive hnone hsleepers hd =>
      refine h.of_same (by rw [hd]) ?_ fun a _ => hsleepers a
      intro lock u hholds
      rw [hd] at hholds
      exact (Bool.and_eq_true _ _ ▸ hholds).1
  | plain act hinv hlive hcur hsleepers hd =>
      refine h.of_same (by rw [hd]) (fun _ _ hholds => by rwa [hd] at hholds) ?_
      intro lock hlock
      exact hsleepers lock (by rw [hlock]; decide)
  | dispatches hidle hinv hlive hcur hnext hsleepers hd =>
      exact h.of_same (by rw [hd]) (fun _ _ hholds => by rwa [hd] at hholds)
        fun a _ => hsleepers a

theorem releases_threadAddr_lost (hreleases : Kernel.Releases k d u l)
    (hbefore : k.threadAddr lock = some t) (hafter : d.threadAddr lock ≠ some t) :
    lock = l ∧ u = t := by
  cases hreleases with
  | holder hholds hwakes hd =>
      by_cases heq : lock = l
      · subst heq
        rw [hbefore] at hholds
        exact ⟨rfl, (Option.some.inj hholds).symm⟩
      · rw [hd] at hafter
        exact absurd (by simpa [heq] using hbefore) hafter
  | other hother hd =>
      rw [hd] at hafter
      exact absurd hbefore hafter

/-- A lock leaves its holder by the holder's own release only, in
`lock_release` or in `cv_wait`. -/
theorem Effect.threadAddr_lost {call : Call} (heffect : Effect kind call k d)
    (hbefore : k.threadAddr lock = some t) (hafter : d.threadAddr lock ≠ some t) :
    k.curthread = some t ∧ (call = .lockRelease lock ∨ ∃ cv, call = .cvSleep cv lock) := by
  cases heffect with
  | @acquires l u _ hkind hcur hpoint hfree =>
      exfalso
      apply hafter
      by_cases heq : lock = l
      · subst heq
        rw [hbefore] at hfree
        have hsame : t = u := by simpa using hfree
        simp [hsame]
      · simpa [heq] using hbefore
  | releases hkind hcur huser hreleases =>
      obtain ⟨rfl, rfl⟩ := releases_threadAddr_lost hreleases hbefore hafter
      exact ⟨hcur, .inl rfl⟩
  | @waits cv lock u _ mid _ hcv hlock hcur hpoint hreleases hsleeps hd =>
      rw [hd] at hafter
      obtain ⟨rfl, rfl⟩ := releases_threadAddr_lost hreleases hbefore hafter
      exact ⟨hcur, .inr ⟨cv, rfl⟩⟩
  | passes hkind hcur hpoint hcount => exact absurd hbefore hafter
  | joins hcv hlock hcur huser mem hqueue => exact absurd hbefore hafter
  | signalsNobody hempty => exact absurd hbefore hafter
  | blocks hkind hcur hpoint hcount hsleeps hd => exact absurd hbefore (by rwa [hd] at hafter)
  | posts hkind hcount hwakes hd => exact absurd hbefore (by rwa [hd] at hafter)
  | contends hkind hcur hpoint hbusy hother hsleeps hd =>
      exact absurd hbefore (by rwa [hd] at hafter)
  | signals hcv huser hhead hinv hlive hcur hsleepers hd =>
      exact absurd hbefore (by rwa [hd] at hafter)
  | broadcasts hcv huser hwakes hd => exact absurd hbefore (by rwa [hd] at hafter)
  | forks hnew hinv hlive hcur hsleepers hd => exact absurd hbefore (by rwa [hd] at hafter)
  | exits hcur huser hinv hlive hnone hsleepers hd =>
      exact absurd hbefore (by rwa [hd] at hafter)
  | plain act hinv hlive hcur hsleepers hd => exact absurd hbefore (by rwa [hd] at hafter)
  | dispatches hidle hinv hlive hcur hnext hsleepers hd =>
      exact absurd hbefore (by rwa [hd] at hafter)

theorem Call.Takes.threadAddr_lost {call : Call} (htakes : call.Takes kind k d)
    (hsound : k.Sound kind) (hbefore : k.threadAddr lock = some t)
    (hafter : d.threadAddr lock ≠ some t) :
    k.curthread = some t ∧ (call = .lockRelease lock ∨ ∃ cv, call = .cvSleep cv lock) := by
  rcases htakes.effects hsound with heffect | ⟨-, mid, hdispatch, hresumes⟩
  · exact heffect.threadAddr_lost hbefore hafter
  · -- Neither the dispatch nor what the thread then does is a release.
    exfalso
    have hmid : mid.threadAddr lock = some t := by
      by_contra hlost
      obtain ⟨-, heq | ⟨cv, heq⟩⟩ := hdispatch.threadAddr_lost hbefore hlost <;> cases heq
    cases hresumes with
    | nothing hsame => exact hafter (hsame ▸ hmid)
    | inP sem heffect =>
        obtain ⟨-, heq | ⟨cv, heq⟩⟩ := heffect.threadAddr_lost hmid hafter <;> cases heq
    | inAcquire l heffect =>
        obtain ⟨-, heq | ⟨cv, heq⟩⟩ := heffect.threadAddr_lost hmid hafter <;> cases heq

end Effects

theorem boot_locks (kind : SleepAddr → Kind) (me : Tid)
    (initialCount : SleepAddr → Fin (2 ^ 31)) : Locks kind (Kernel.boot me initialCount) where
  held _ _ hholds := by cases hholds
  nobody _ _ _ := rfl

/-- At most one thread is between its `lock_acquire` and its next `lock_release`
of a lock, and `thread_addr` names it; the lock passes from a thread by that
thread's release only; and nobody sleeps on a lock that nobody holds. -/
theorem lock_safety {kind : SleepAddr → Kind} {me : Tid}
    {initialCount : SleepAddr → Fin (2 ^ 31)} {k : Kernel} {lock : SleepAddr}
    (hrun : Kernel.Runs kind (Kernel.boot me initialCount) k) (hlock : kind lock = .lock) :
    (∀ t u, k.holding lock t = true → k.holding lock u = true → t = u) ∧
    (∀ t, k.holding lock t = true → k.threadAddr lock = some t) ∧
    (∀ (call : Call) d t, call.Takes kind k d → k.threadAddr lock = some t →
      d.threadAddr lock ≠ some t →
      k.curthread = some t ∧ (call = .lockRelease lock ∨ ∃ cv, call = .cvSleep cv lock)) ∧
    (k.threadAddr lock = none → ∀ t ∈ k.config.sys.sleepers.contents,
      (k.config.sys.thread t).tSleepaddr ≠ some lock) := by
  obtain ⟨hsound, h⟩ := hrun.preserves (fun _ _ _ _ h => h.effect)
    (Kernel.boot_sound me initialCount) (boot_locks kind me initialCount)
  refine ⟨?_, h.held lock, ?_, ?_⟩
  · intro t u ht hu
    have hholder := h.held lock t ht
    rw [h.held lock u hu] at hholder
    exact (Option.some.inj hholder).symm
  · intro call d t htakes hbefore hafter
    exact htakes.threadAddr_lost hsound hbefore hafter
  · intro hfree t ht haddr
    have hmem : t ∈ k.sleepersOn lock := by
      rw [Kernel.sleepersOn, ThreadSystem.sleepersOn, List.mem_filter]
      exact ⟨ht, by simp [ThreadSystem.wakes, haddr]⟩
    rw [h.nobody lock hlock hfree] at hmem
    cases hmem

/-- A lock at address 5. -/
def oneLock (addr : SleepAddr) : Kind :=
  if addr = 5 then .lock else .other

/-- The first thread takes the lock twice; the second releases it in vain and
blocks on it, until the first gives it back. -/
def passLock : List Call :=
  [.system (.fork 1), .lockAcquire 5, .lockAcquire 5, .system .yield, .dispatch,
    .lockRelease 5, .lockAcquire 5, .dispatch, .lockRelease 5, .system .yield, .dispatch]

theorem lock_safety_pass_lock :
    ∃ k : Kernel, Kernel.Runs oneLock (Kernel.boot 0 fun _ => 0) k ∧
      k.holding 5 1 = true ∧ k.threadAddr 5 = some 1 ∧ k.holding 5 0 = false := by
  have hpasses : Call.runsThrough oneLock (fun _ _ => true) passLock
      (Kernel.boot 0 fun _ => 0) = true := by decide
  have hrun := Call.kernelRuns_of_runsThrough _ _ hpasses
  have hlock : oneLock 5 = .lock := rfl
  have hholds : (passLock.foldl (fun k call => call.next k)
      (Kernel.boot 0 fun _ => 0)).holding 5 1 = true := by decide
  exact ⟨_, hrun, hholds, (lock_safety hrun hlock).2.1 1 hholds, by decide⟩

end OS161.Threads
