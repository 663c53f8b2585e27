import OS161.Threads.Synch

namespace OS161.Threads

open OS161.Data
open OS161.Kern

/-! The count of a semaphore, and who sleeps on it. -/

/-- An increment of the largest `int` wraps around, and `V` stops there. -/
theorem int32_succ_of_pos {n : Int} (hnonneg : 0 ≤ n) (hlt : n < 2 ^ 31)
    (hpos : 0 < int32 (n + 1)) : int32 (n + 1) = n + 1 ∧ n + 1 < 2 ^ 31 := by
  by_cases hmax : n + 1 < 2 ^ 31
  · exact ⟨int32_of_lt (by omega) hmax, hmax⟩
  · have hlargest : n = 2 ^ 31 - 1 := by omega
    subst hlargest
    exact absurd hpos (by decide)

structure Semaphores (kind : SleepAddr → Kind) (initialCount : SleepAddr → Fin (2 ^ 31))
    (k : Kernel) : Prop where
  counted : ∀ sem, kind sem = .semaphore →
    k.count sem = (initialCount sem : Nat) + k.vDone sem - k.pDone sem
  nonneg : ∀ sem, kind sem = .semaphore → 0 ≤ k.count sem
  small : ∀ sem, kind sem = .semaphore → k.count sem < 2 ^ 31
  nobody : ∀ sem, kind sem = .semaphore → 0 < k.count sem → k.sleepersOn sem = []

section Effects

variable {kind : SleepAddr → Kind} {initialCount : SleepAddr → Fin (2 ^ 31)} {k d : Kernel}

/-- A call that leaves the semaphores alone. -/
theorem Semaphores.of_same (h : Semaphores kind initialCount k) (hcount : d.count = k.count)
    (hvDone : d.vDone = k.vDone) (hpDone : d.pDone = k.pDone)
    (hsleepers : ∀ sem, kind sem = .semaphore → d.sleepersOn sem = k.sleepersOn sem) :
    Semaphores kind initialCount d := by
  constructor
  · intro sem hsem
    rw [hcount, hvDone, hpDone]
    exact h.counted sem hsem
  · intro sem hsem
    rw [hcount]
    exact h.nonneg sem hsem
  · intro sem hsem
    rw [hcount]
    exact h.small sem hsem
  · intro sem hsem hpos
    rw [hcount] at hpos
    rw [hsleepers sem hsem]
    exact h.nobody sem hsem hpos

theorem Semaphores.passes (h : Semaphores kind initialCount k) (hkind : kind sem = .semaphore)
    (hcount : 0 < k.count sem)
    (hd : d.count = Function.update k.count sem (int32 (k.count sem - 1)))
    (hvDone : d.vDone = k.vDone)
    (hpDone : d.pDone = Function.update k.pDone sem (k.pDone sem + 1))
    (hsleepers : ∀ a, d.sleepersOn a = k.sleepersOn a) : Semaphores kind initialCount d := by
  have hsmall := h.small sem hkind
  have hless : int32 (k.count sem - 1) = k.count sem - 1 :=
    int32_of_lt (by omega) (by omega)
  have hself : d.count sem = k.count sem - 1 := by rw [hd, Function.update_self, hless]
  have hothers : ∀ a, a ≠ sem → d.count a = k.count a := by
    intro a ha
    rw [hd, Function.update_of_ne ha]
  constructor
  · intro a ha
    by_cases heq : a = sem
    · subst heq
      have hbefore := h.counted a ha
      rw [hself, hvDone, hpDone, Function.update_self]
      omega
    · rw [hothers a heq, hvDone, hpDone, Function.update_of_ne heq]
      exact h.counted a ha
  · intro a ha
    by_cases heq : a = sem
    · subst heq
      omega
    · rw [hothers a heq]
      exact h.nonneg a ha
  · intro a ha
    by_cases heq : a = sem
    · subst heq
      omega
    · rw [hothers a heq]
      exact h.small a ha
  · intro a ha hpos
    rw [hsleepers a]
    by_cases heq : a = sem
    · subst heq
      exact h.nobody a ha hcount
    · rw [hothers a heq] at hpos
      exact h.nobody a ha hpos

theorem Semaphores.posts (h : Semaphores kind initialCount k) (hkind : kind sem = .semaphore)
    (hcount : 0 < int32 (k.count sem + 1)) (hwakes : Kernel.Wakes k d sem)
    (hd : d.count = Function.update k.count sem (int32 (k.count sem + 1)))
    (hvDone : d.vDone = Function.update k.vDone sem (k.vDone sem + 1))
    (hpDone : d.pDone = k.pDone) : Semaphores kind initialCount d := by
  obtain ⟨hmore, hsmall⟩ := int32_succ_of_pos (h.nonneg sem hkind) (h.small sem hkind) hcount
  have hself : d.count sem = k.count sem + 1 := by rw [hd, Function.update_self, hmore]
  have hothers : ∀ a, a ≠ sem → d.count a = k.count a := by
    intro a ha
    rw [hd, Function.update_of_ne ha]
  constructor
  · intro a ha
    by_cases heq : a = sem
    · subst heq
      have hbefore := h.counted a ha
      rw [hself, hpDone, hvDone, Function.update_self]
      omega
    · rw [hothers a heq, hpDone, hvDone, Function.update_of_ne heq]
      exact h.counted a ha
  · intro a ha
    by_cases heq : a = sem
    · subst heq
      have := h.nonneg a ha
      omega
    · rw [hothers a heq]
      exact h.nonneg a ha
  · intro a ha
    by_cases heq : a = sem
    · subst heq
      omega
    · rw [hothers a heq]
      exact h.small a ha
  · intro a ha hpos
    rw [hwakes.sleepers a]
    by_cases heq : a = sem
    · rw [if_pos heq]
    · rw [if_neg heq]
      rw [hothers a heq] at hpos
      exact h.nobody a ha hpos

/-- Only a thread that finds the count at 0 goes to sleep on a semaphore. -/
theorem Semaphores.blocks (h : Semaphores kind initialCount k) (hcount : k.count sem = 0)
    (hsleeps : Kernel.Sleeps k d t sem) (hd : d.count = k.count)
    (hvDone : d.vDone = k.vDone) (hpDone : d.pDone = k.pDone) :
    Semaphores kind initialCount d := by
  constructor
  · intro a ha
    rw [hd, hvDone, hpDone]
    exact h.counted a ha
  · intro a ha
    rw [hd]
    exact h.nonneg a ha
  · intro a ha
    rw [hd]
    exact h.small a ha
  · intro a ha hpos
    rw [hd] at hpos
    have hne : a ≠ sem := by
      intro heq
      rw [heq, hcount] at hpos
      exact absurd hpos (by decide)
    rw [hsleeps.sleepers a, if_neg hne]
    exact h.nobody a ha hpos

theorem Semaphores.releases (h : Semaphores kind initialCount k) (hkind : kind lock = .lock)
    (hreleases : Kernel.Releases k d t lock) : Semaphores kind initialCount d := by
  cases hreleases with
  | holder hholds hwakes hd =>
      refine h.of_same (by rw [hd]) (by rw [hd]) (by rw [hd]) ?_
      intro sem hsem
      have hne := ne_of_kind hsem (by rw [hkind]; decide)
      rw [hwakes.sleepers, if_neg hne]
  | other hother hd =>
      rw [hd]
      exact h.of_same rfl rfl rfl fun _ _ => rfl

theorem Semaphores.effect {call : Call} (h : Semaphores kind initialCount k)
    (heffect : Effect kind call k d) : Semaphores kind initialCount d := by
  cases heffect with
  | passes hkind hcur hpoint hcount =>
      exact h.passes hkind hcount rfl rfl rfl fun _ => rfl
  | blocks hkind hcur hpoint hcount hsleeps hd =>
      exact h.blocks hcount hsleeps (by rw [hd]) (by rw [hd]) (by rw [hd])
  | posts hkind hcount hwakes hd =>
      exact h.posts hkind hcount hwakes (by rw [hd]) (by rw [hd]) (by rw [hd])
  | acquires hkind hcur hpoint hfree => exact h.of_same rfl rfl rfl fun _ _ => rfl
  | contends hkind hcur hpoint hbusy hother hsleeps hd =>
      refine h.of_same (by rw [hd]) (by rw [hd]) (by rw [hd]) ?_
      intro sem hsem
      have hne := ne_of_kind hsem (by rw [hkind]; decide)
      rw [hsleeps.sleepers, if_neg hne]
  | releases hkind hcur huser hreleases => exact h.releases hkind hreleases
  | joins hcv hlock hcur huser mem hqueue => exact h.of_same rfl rfl rfl fun _ _ => rfl
  | waits hcv hlock hcur hpoint hreleases hsleeps hd =>
      refine (h.releases hlock hreleases).of_same (by rw [hd]) (by rw [hd]) (by rw [hd]) ?_
      intro sem hsem
      have hne := ne_of_kind hsem (by rw [hcv]; decide)
      rw [hsleeps.sleepers, if_neg hne]
  | signalsNobody hempty => exact h
  | signals hcv huser hhead hinv hlive hcur hsleepers hd =>
      refine h.of_same (by rw [hd]) (by rw [hd]) (by rw [hd]) ?_
      intro sem hsem
      have hne := ne_of_kind hsem (by rw [hcv]; decide)
      rw [hsleepers, if_neg hne]
  | broadcasts hcv huser hwakes hd =>
      refine h.of_same (by rw [hd]) (by rw [hd]) (by rw [hd]) ?_
      intro sem hsem
      have hne := ne_of_kind hsem (by rw [hcv]; decide)
      rw [hwakes.sleepers, if_neg hne]
  | forks hnew hinv hlive hcur hsleepers hd =>
      exact h.of_same (by rw [hd]) (by rw [hd]) (by rw [hd]) fun a _ => hsleepers a
  | exits hcur huser hinv hlive hnone hsleepers hd =>
      exact h.of_same (by rw [hd]) (by rw [hd]) (by rw [hd]) fun a _ => hsleepers a
  | plain act hinv hlive hcur hsleepers hd =>
      refine h.of_same (by rw [hd]) (by rw [hd]) (by rw [hd]) ?_
      intro sem hsem
      exact hsleepers sem (by rw [hsem]; decide)
  | dispatches hidle hinv hlive hcur hnext hsleepers hd =>
      exact h.of_same (by rw [hd]) (by rw [hd]) (by rw [hd]) fun a _ => hsleepers a

end Effects

theorem boot_semaphores (kind : SleepAddr → Kind) (me : Tid)
    (initialCount : SleepAddr → Fin (2 ^ 31)) :
    Semaphores kind initialCount (Kernel.boot me initialCount) where
  counted sem _ := by simp [Kernel.boot]
  nonneg sem _ := by simp [Kernel.boot]
  small sem _ := by
    have hlt := (initialCount sem).isLt
    simp only [Kernel.boot]
    omega
  nobody sem _ _ := rfl

/-- The count of a semaphore is its initial count and the `V`s less the `P`s
that came back, is not negative, and is not positive while a thread sleeps on
the semaphore. -/
theorem semaphore_conservation {kind : SleepAddr → Kind} {me : Tid}
    {initialCount : SleepAddr → Fin (2 ^ 31)} {k : Kernel} {sem : SleepAddr}
    (hrun : Kernel.Runs kind (Kernel.boot me initialCount) k)
    (hsem : kind sem = .semaphore) :
    k.count sem = (initialCount sem : Nat) + k.vDone sem - k.pDone sem ∧
    0 ≤ k.count sem ∧
    (0 < k.count sem → ∀ t ∈ k.config.sys.sleepers.contents,
      (k.config.sys.thread t).tSleepaddr ≠ some sem) := by
  obtain ⟨-, h⟩ := hrun.preserves (fun _ _ _ _ h => h.effect) (Kernel.boot_sound me initialCount)
    (boot_semaphores kind me initialCount)
  refine ⟨h.counted sem hsem, h.nonneg sem hsem, ?_⟩
  intro hpos t ht haddr
  have hmem : t ∈ k.sleepersOn sem := by
    rw [Kernel.sleepersOn, ThreadSystem.sleepersOn, List.mem_filter]
    exact ⟨ht, by simp [ThreadSystem.wakes, haddr]⟩
  rw [h.nobody sem hsem hpos] at hmem
  cases hmem

/-- A semaphore at address 7. -/
def oneSemaphore (addr : SleepAddr) : Kind :=
  if addr = 7 then .semaphore else .other

/-- The first thread blocks in `P`, the second one calls `V` and yields, and the
first one comes back. -/
def handOver : List Call :=
  [.system (.fork 1), .P 7, .dispatch, .V 7, .system .yield, .dispatch]

theorem semaphore_conservation_hand_over :
    ∃ k : Kernel, Kernel.Runs oneSemaphore (Kernel.boot 0 fun _ => 0) k ∧
      k.vDone 7 = 1 ∧ k.pDone 7 = 1 ∧ k.count 7 = 0 + 1 - 1 := by
  have hpasses : Call.runsThrough oneSemaphore (fun _ _ => true) handOver
      (Kernel.boot 0 fun _ => 0) = true := by decide
  have hrun := Call.kernelRuns_of_runsThrough _ _ hpasses
  have hsem : oneSemaphore 7 = .semaphore := rfl
  have hcount := (semaphore_conservation hrun hsem).1
  have hvDone : (handOver.foldl (fun k call => call.next k)
      (Kernel.boot 0 fun _ => 0)).vDone 7 = 1 := by decide
  have hpDone : (handOver.foldl (fun k call => call.next k)
      (Kernel.boot 0 fun _ => 0)).pDone 7 = 1 := by decide
  refine ⟨_, hrun, hvDone, hpDone, ?_⟩
  rw [hcount, hvDone, hpDone]
  rfl

end OS161.Threads
