import OS161.VM.FrameOwnership
import OS161.VM.Tlb

namespace OS161.VM.Machine

open OS161.Data
open OS161.Kern

/-! The entries of the TLB belong to the thread that runs, across context
switches. -/

/-- Every valid slot of these carries the process id. -/
def OnlyPid (pid : Nat) (tlb : Nat → TlbEntry) : Prop :=
  ∀ i < NUM_TLB, (tlb i).valid = true → (tlb i).pid = pid

/-- User code has no translation of another address space. -/
def Isolated (m : Machine) : Prop := OnlyPid m.pid m.tlb

/-- What `mi_switch` does for the incoming thread.  `garbage` is what stands in
the words that `as_activate` tests for process 2. -/
structure Switch where
  tVmspace : AsId
  pid : Nat
  garbage : TlbEntry

def Switch.run (s : Switch) : Op Unit := do
  Prog.modify fun m => { m with tVmspace := some s.tVmspace, pid := s.pid }
  asActivate s.garbage

/-- The entry that `as_activate` decides by. -/
def Switch.tested (s : Switch) (m : Machine) : TlbEntry :=
  if s.pid ≠ 2 then m.tlb 0 else s.garbage

/-- The same process goes on, or there is nothing to flush, or the entry tested
makes `as_activate` flush. -/
def Switch.Flushes (s : Switch) (m : Machine) : Prop :=
  s.pid = m.pid ∨ (∀ i < NUM_TLB, (m.tlb i).valid = false) ∨
    ((s.tested m).elo ≠ 0 ∧ (s.tested m).pid ≠ s.pid)

/-- One call that comes back, a context switch, or what user code stores between
them. -/
inductive SwitchingStep : Machine → Option Switch → Machine → Prop where
  | vmFault (hmiss : m.translate address = none)
      (hdone : vmFault depth faulttype address m = .ok () m') : SwitchingStep m none m'
  | vmFaultError (hmiss : m.translate address = none)
      (hdone : vmFault depth faulttype address m = .error code m') : SwitchingStep m none m'
  | evict (hdone : evict (kernelTouch depth) vaddr m = .ok done m') : SwitchingStep m none m'
  | store (ram : Nat → Byte) : SwitchingStep m none { m with ram := ram }
  | switch (s : Switch) (hpid : 1 ≤ s.pid ∧ s.pid < 64) (hdone : s.run m = .ok () m') :
      SwitchingStep m (some s) m'

/-- A step whose switch, if it is one, flushes what it has to. -/
def FlushingStep (m m' : Machine) : Prop :=
  ∃ switch, SwitchingStep m switch m' ∧ ∀ s ∈ switch, Switch.Flushes s m

variable {m m' : Machine} {pid : Nat} {tlb : Nat → TlbEntry}

theorem onlyPid_invalid (pid : Nat) (hall : ∀ i < NUM_TLB, (tlb i).valid = false) :
    OnlyPid pid tlb := by
  intro i hi hvalid
  rw [hall i hi] at hvalid
  cases hvalid

theorem onlyPid_tlbFact (pid : Nat) : TlbFact pid (OnlyPid pid) where
  empty tlb hall := by
    apply onlyPid_invalid
    intro i hi
    rw [hall i hi, valid_invalid]
  drop tlb i honly j hj hvalid := by
    by_cases heq : j = i
    · rw [heq, Function.update_self, valid_invalid] at hvalid
      cases hvalid
    · rw [Function.update_of_ne heq] at hvalid ⊢
      exact honly j hj hvalid
  place tlb i e _ _ hpid _ honly j hj hvalid := by
    by_cases heq : j = i
    · rw [heq, Function.update_self]
      exact hpid
    · rw [Function.update_of_ne heq] at hvalid ⊢
      exact honly j hj hvalid

theorem Switch.run_returns (s : Switch) (m : Machine) :
    Prog.Returns s.run (fun _ m' => m'.pid = s.pid ∧
      if (s.tested m).elo ≠ 0 ∧ (s.tested m).pid ≠ s.pid then
        ∀ i < NUM_TLB, m'.tlb i = .invalid i
      else m'.tlb = m.tlb) m := by
  simp only [Switch.run, asActivate, tlbRead, ↓Prog.wp_bind, ↓Prog.wp_modify, ↓Prog.wp_get,
    ↓Prog.wp_ite, ↓Prog.wp_pure, ↓Prog.wp_when, Switch.tested]
  have hflush (m₁ : Machine) (hpid : m₁.pid = s.pid) :
      Prog.Returns tlbFlush (fun _ m' => m'.pid = s.pid ∧
        ∀ i < NUM_TLB, m'.tlb i = .invalid i) m₁ := by
    refine (tlbFlush_returns m₁).mono ?_
    rintro _ m' ⟨tlb, rfl, hall⟩
    exact ⟨hpid, hall⟩
  split
  case isTrue =>
      split
      case isTrue => exact hflush _ rfl
      case isFalse => exact ⟨trivial, trivial⟩
  case isFalse =>
      split
      case isTrue => exact hflush _ rfl
      case isFalse => exact ⟨trivial, trivial⟩

/-- A switch from an isolated state leads to one exactly where it flushes what
it has to. -/
theorem Switch.isolated_iff (s : Switch) (hm : m.Isolated) (hdone : s.run m = .ok () m') :
    m'.Isolated ↔ s.Flushes m := by
  obtain ⟨hpid, htlb⟩ := (s.run_returns m).post_of_ok hdone
  rw [Isolated, hpid]
  split at htlb
  case isTrue htest =>
      exact iff_of_true ((onlyPid_tlbFact s.pid).empty _ htlb) (Or.inr (Or.inr htest))
  case isFalse htest =>
      rw [htlb]
      constructor
      · intro honly
        by_cases hsame : s.pid = m.pid
        · exact Or.inl hsame
        · refine Or.inr (Or.inl ?_)
          intro i hi
          by_contra hvalid
          rw [Bool.not_eq_false] at hvalid
          exact hsame ((honly i hi hvalid).symm.trans (hm i hi hvalid))
      · rintro (hsame | hempty | hflush)
        · rw [hsame]
          exact hm
        · exact onlyPid_invalid _ hempty
        · exact absurd hflush htest

/-! Runs. -/

theorem OnTlb.isolated (hm : OnTlb (OnlyPid pid) pid m) (hpid : pid < 64) :
    m.Isolated ∧ m.pid < 64 := by
  rw [Isolated, hm.2]
  exact ⟨hm.1, hpid⟩

theorem FlushingStep.isolated (hstep : FlushingStep m m') (hm : m.Isolated ∧ m.pid < 64) :
    m'.Isolated ∧ m'.pid < 64 := by
  obtain ⟨hm, hpid⟩ := hm
  obtain ⟨switch, hstep, hflushes⟩ := hstep
  have hkeeps := (onlyPid_tlbFact m.pid).pagerKeeps hpid
  have hon : OnTlb (OnlyPid m.pid) m.pid m := ⟨hm, rfl⟩
  cases hstep with
  | vmFault _ hdone => exact ((hkeeps.vmFault _ _ trivial m hon).post_of_ok hdone).isolated hpid
  | vmFaultError _ hdone =>
      exact ((hkeeps.vmFault _ _ trivial m hon).fails_of_error hdone).isolated hpid
  | evict hdone =>
      exact ((hkeeps.evict (hkeeps.kernelTouch _) _ m hon).post_of_ok hdone).isolated hpid
  | store ram => exact ⟨hm, hpid⟩
  | switch s hlt hdone =>
      refine ⟨(s.isolated_iff hm hdone).mpr (hflushes s rfl), ?_⟩
      rw [((s.run_returns m).post_of_ok hdone).1]
      exact hlt.2

theorem tlb_isolation (hpid : m.pid < 64) (hm : m.Isolated)
    (hrun : Relation.ReflTransGen FlushingStep m m') : m'.Isolated := by
  have hkeeps := invariant_of_steps (fun m => m.Isolated ∧ m.pid < 64) hrun ⟨hm, hpid⟩
    (fun _ _ hbefore hstep => hstep.isolated hbefore)
  exact hkeeps.1

private def nextThread : Switch := ⟨1, 3, .invalid 0⟩

private theorem booted_isolated : booted.Isolated :=
  onlyPid_invalid _ (by decide)

private theorem switching_first : SwitchingStep booted none afterFirst := by
  have hok : (vmFault 3 .VM_FAULT_WRITE 0x20000000 booted).returned = some () := by
    decide
  exact .vmFault (by decide) (Result.eq_ok_of_returned booted hok)

private def afterFlush : Machine := (nextThread.run afterFirst).stateD afterFirst

/-- The page of process 2 is gone when process 3 runs. -/
theorem tlb_isolation_flush :
    (afterFirst.tlb 0).pid = 2 ∧ (afterFirst.tlb 0).valid = true ∧ afterFlush.Isolated := by
  have hok : (nextThread.run afterFirst).returned = some () := by
    decide
  have hswitch : SwitchingStep afterFirst (some nextThread) afterFlush :=
    .switch nextThread (by decide) (Result.eq_ok_of_returned afterFirst hok)
  refine ⟨by decide, by decide, ?_⟩
  refine tlb_isolation (by decide) booted_isolated
    (.tail (.single ⟨none, switching_first, fun _ h => by cases h⟩)
      ⟨some nextThread, hswitch, ?_⟩)
  rintro s ⟨rfl⟩
  exact Or.inr (Or.inr (by decide))

private def afterStale : Machine := (nextThread.run afterEvict).stateD afterEvict

/-- `evict` drops slot 0, the only one that `as_activate` looks at: process 3
runs with the page of process 2 in slot 1. -/
theorem stale_entry_after_switch :
    booted.Isolated ∧ booted.pid < 64 ∧
    Relation.ReflTransGen (fun m m' => ∃ switch, SwitchingStep m switch m') booted afterEvict ∧
    SwitchingStep afterEvict (some nextThread) afterStale ∧ ¬ afterStale.Isolated := by
  have hsecond : (vmFault 3 .VM_FAULT_WRITE 0x20001000 afterFirst).returned = some () := by
    decide
  have hevict : (evict (kernelTouch 3) 0x20001000 afterSecond).returned = some true := by
    decide
  have hswitch : (nextThread.run afterEvict).returned = some () := by
    decide
  have hrun : Relation.ReflTransGen (fun m m' => ∃ switch, SwitchingStep m switch m')
      booted afterSecond :=
    .tail (.single ⟨_, switching_first⟩)
      ⟨_, .vmFault (by decide) (Result.eq_ok_of_returned _ hsecond)⟩
  refine ⟨booted_isolated, by decide, .tail hrun
    ⟨_, .evict (Result.eq_ok_of_returned _ hevict)⟩,
    .switch nextThread (by decide) (Result.eq_ok_of_returned _ hswitch), ?_⟩
  intro hisolated
  have hpid : (afterStale.tlb 1).pid = afterStale.pid :=
    hisolated 1 (by decide) (by decide)
  revert hpid
  decide

end OS161.VM.Machine
