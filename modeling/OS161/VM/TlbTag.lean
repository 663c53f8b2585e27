import Mathlib.Logic.Function.Iterate
import OS161.VM.RegionMap
import OS161.VM.Tlb

namespace OS161.VM.Machine

open OS161.Data
open OS161.Kern
open OS161.Lib

/-! The upper word of the entry that `vm_fault` writes: the page that faulted, and
the `pid` of the thread in the field that `TLBHI_PID` cuts out. -/

variable {m m' : Machine}

/-- `get_newpid`, which returns what it leaves in `global_pid`. -/
def getNewpid (globalPid : Nat) : Nat := globalPid + 1

/-- `faultaddress | pid`, where `pid` is that of the thread times 64. -/
def faultEhi (va pid : Nat) : Nat := pageFrame va ||| pid * 64 % 2 ^ 32

/-- The fields of the entry give back what was put in. -/
structure Tagged (va pid : Nat) (e : TlbEntry) : Prop where
  vpage : e.vpage = pageFrame va
  pid : e.pid = pid

/-- The field holds the `pid` up to multiples of 64, so the threads whose numbers
differ by such a multiple share a tag. -/
theorem pid_faultEhi (va pid elo : Nat) :
    (⟨faultEhi va pid, elo⟩ : TlbEntry).pid = pid % 64 := by
  have hpage : pageFrame va / 2 ^ 6 % 2 ^ 6 = 0 := by
    simp only [pageFrame, PAGE_SIZE]
    omega
  calc (⟨faultEhi va pid, elo⟩ : TlbEntry).pid
      = (pageFrame va ||| pid * 64 % 2 ^ 32) / 2 ^ 6 % 2 ^ 6 := rfl
    _ = (pageFrame va / 2 ^ 6 % 2 ^ 6 ||| pid * 64 % 2 ^ 32 / 2 ^ 6 % 2 ^ 6) := by
        rw [← Nat.shiftRight_eq_div_pow, Nat.shiftRight_or_distrib, Nat.or_mod_two_pow,
          Nat.shiftRight_eq_div_pow, Nat.shiftRight_eq_div_pow]
    _ = pid * 64 % 2 ^ 32 / 2 ^ 6 % 2 ^ 6 := by rw [hpage, Nat.zero_or]
    _ = pid % 64 := by omega

theorem tagged_iff (va pid elo : Nat) : Tagged va pid ⟨faultEhi va pid, elo⟩ ↔ pid < 64 := by
  constructor
  · intro htagged
    have hpid := htagged.pid
    rw [pid_faultEhi] at hpid
    omega
  · intro hlt
    have hfields := pid_or_pid va hlt elo
    exact ⟨hfields.2, hfields.1⟩

theorem refill_places (a : AsId) (va : Nat) :
    Prog.wp (refill a (pageFrame va))
      (fun _ m' => ∃ (m₁ : Machine) (elo : Nat), m₁.pid = m.pid ∧
        m₁.Placed ⟨faultEhi va m.pid, elo⟩ m')
      (fun _ m' => m'.pid = m.pid) (fun _ => True) m := by
  have hstart : OnTlb (fun _ => True) m.pid m := ⟨trivial, rfl⟩
  simp only [refill, ↓Prog.wp_bind, ↓Prog.wp_get]
  refine Prog.wp_mono (loadPage_onTlb _ a _ m hstart) ?_ (fun _ _ h => h.2) (fun _ _ => trivial)
  intro _ m₁ hm₁
  refine Prog.wp_mono (frameIndex_onTlb a _ m₁ hm₁) ?_ (fun _ _ h => h.2) (fun _ _ => trivial)
  intro index m₂ hm₂
  refine Prog.wp_mono (tlbInsert_placed m₂ _ m₂.asid rfl ?_) ?_ (fun _ _ h => h.elim)
    (fun _ _ => trivial)
  · intro j hj
    exact absurd hj (Nat.not_lt_zero j)
  · intro _ m' hplaced
    rw [hm₂.2] at hplaced
    exact ⟨m₂, _, hm₂.2, hplaced⟩

theorem anyTlb (pid : Nat) : TlbFact pid (fun _ => True) where
  empty _ _ := trivial
  drop _ _ _ := trivial
  place _ _ _ _ _ _ _ _ := trivial

theorem pid_pagerKeeps (pid : Nat) :
    PagerKeeps (OnTlb (fun _ => True) pid) (FallsOff fun _ => True)
      (fun _ _ => OnTlb (fun _ => True) pid) (fun _ => True) := by
  apply (anyTlb pid).pagerKeeps_of_refill
  intro a va m hm
  refine Prog.wp_mono (refill_places a va) ?_ ?_ ?_
  · rintro _ m' ⟨m₁, elo, hpid, hplaced⟩
    obtain ⟨tlb, rfl⟩ := hplaced.entered.same
    exact ⟨trivial, hpid.trans hm.2⟩
  · intro _ m' hpid
    exact ⟨trivial, hpid.trans hm.2⟩
  · intro reason _ _
    exact ⟨fun _ => ⟨0, TLBLO_VALID⟩, trivial, by decide⟩

/-- The entry that a fault leaves in the TLB shows the page that faulted, and the thread
that runs, exactly where the `pid` of the thread fits in the field. -/
theorem fault_tagged_iff (hrun : vmFault depth faulttype va m = .ok () m') :
    ∃ (m₁ : Machine) (elo : Nat), m₁.pid = m.pid ∧
      m₁.Placed ⟨faultEhi va m.pid, elo⟩ m' ∧
      (Tagged va m.pid ⟨faultEhi va m.pid, elo⟩ ↔ m.pid < 64) := by
  have hplaces : Prog.wp (vmFault depth faulttype va)
      (fun _ m' => ∃ (m₁ : Machine) (elo : Nat), m₁.pid = m.pid ∧
        m₁.Placed ⟨faultEhi va m.pid, elo⟩ m')
      (fun _ m' => OnTlb (fun _ => True) m.pid m') (FallsOff fun _ => True) m := by
    apply (pid_pagerKeeps m.pid).vmFault_ends depth faulttype trivial _ ⟨trivial, rfl⟩
    intro a m₂ hm₂
    refine Prog.wp_mono (refill_places a va) ?_ ?_ ?_
    · rintro _ m' ⟨m₁, elo, hpid, hplaced⟩
      rw [hm₂.2] at hpid hplaced
      exact ⟨m₁, elo, hpid, hplaced⟩
    · intro _ m' hpid
      exact ⟨trivial, hpid.trans hm₂.2⟩
    · intro reason _ _
      exact ⟨fun _ => ⟨0, TLBLO_VALID⟩, trivial, by decide⟩
  obtain ⟨m₁, elo, hpid, hplaced⟩ := hplaces.post_of_ok hrun
  exact ⟨m₁, elo, hpid, hplaced, tagged_iff va m.pid elo⟩

/-- A thread with the number runs, in a space with a page of text and a page of data. -/
private def runningAs (pid : Nat) : Machine :=
  { spacious (twoRegions 0x400000 1 0x10000000 1) (fun _ => 0) with pid := pid }

private def faultTaken (pid : Nat) : Machine :=
  (vmFault 1 .VM_FAULT_READ 0x10000000 (runningAs pid)).stateD (runningAs pid)

theorem fault_tagged_first_pid : ∃ (m₁ : Machine) (elo : Nat), m₁.pid = 2 ∧
    m₁.Placed ⟨faultEhi 0x10000000 2, elo⟩ (faultTaken 2) ∧
    (Tagged 0x10000000 2 ⟨faultEhi 0x10000000 2, elo⟩ ↔ 2 < 64) := by
  have hok : (vmFault 1 .VM_FAULT_READ 0x10000000 (runningAs 2)).returned = some () := by
    decide
  exact fault_tagged_iff (Result.eq_ok_of_returned (runningAs 2) hok)

/-- The number 64 lands in the page number: the entry shows the page behind the one that
faulted, and the tag of no thread. -/
theorem sixty_fourth_pid_mistagged :
    getNewpid^[63] 1 = 64 ∧
    vmFault 1 .VM_FAULT_READ 0x10000000 (runningAs 64) = .ok () (faultTaken 64) ∧
    ((faultTaken 64).tlb 0).vpage = 0x10001000 ∧ ((faultTaken 64).tlb 0).pid = 0 ∧
    ((faultTaken 64).tlb 0).valid = true := by
  have hok : (vmFault 1 .VM_FAULT_READ 0x10000000 (runningAs 64)).returned = some () := by
    decide
  exact ⟨by decide, Result.eq_ok_of_returned (runningAs 64) hok, by decide,
    by decide, by decide⟩

end OS161.VM.Machine
