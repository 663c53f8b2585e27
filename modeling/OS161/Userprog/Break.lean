import Mathlib.Order.Bounds.Basic
import OS161.Userprog.Sbrk

namespace OS161.Userprog

open OS161.Data
open OS161.Kern
open OS161.VM

/-! What a program may count on when it calls `sbrk`: the old end of the heap
comes back, and the new one is the sum, rounded up to a word. -/

/-- The new end of the heap for the old one and a change. -/
def RoundedUp (old : Nat) (change : Int) (new : Nat) : Prop :=
  IsLeast {n : Int | 4 ∣ n ∧ (old : Int) + change ≤ n} new

/-- What a call may come to. -/
def KeepsContract (a : AsId) (change : Int) (m : Machine) :
    Result Errno Fault Machine SbrkReturn → Prop
  | .ok ⟨htop, none⟩ m' =>
      htop = (layoutOf a m).heaptop ∧
        RoundedUp (layoutOf a m).heaptop change (layoutOf a m').heaptop
  | .ok ⟨_, some _⟩ m' => (layoutOf a m').heaptop = (layoutOf a m).heaptop
  | .error _ _ => False
  | .panic _ => False

/-- The two range checks of `sys_sbrk`. -/
def Refused (l : Layout) (change : Int) : Prop :=
  let newHpos := int32 (l.heaptop + change)
  u32 (l.heaptop + change) < l.heapbottom ∨
    u32 (int32 (newHpos + newHpos.tmod 4)) > l.stackvbase

/-- The sum is an address whose remainder takes it to the next word: 0, or 2 where
the sum is no negative `int`. -/
def Rounds (sum : Int) : Prop :=
  0 ≤ sum ∧ sum < 2 ^ 32 ∧ (sum % 4 = 0 ∨ sum % 4 = 2 ∧ sum < 2 ^ 31)

/-- A change of zero is answered with the bottom of the heap. -/
def SbrkOk (l : Layout) (change : Int) : Prop :=
  if change = 0 then l.heaptop = l.heapbottom ∧ l.heaptop % 4 = 0
  else Refused l change ∨ Rounds (l.heaptop + change)

instance : Decidable (Refused l change) := inferInstanceAs (Decidable (_ ∨ _))

instance : Decidable (Rounds sum) := inferInstanceAs (Decidable (_ ∧ _))

instance : Decidable (SbrkOk l change) :=
  inferInstanceAs (Decidable (if change = 0 then _ ∧ _ else _ ∨ _))

theorem roundedUp_iff : RoundedUp old change new ↔
    (new : Int) % 4 = 0 ∧ (old : Int) + change ≤ new ∧ (new : Int) < old + change + 4 := by
  constructor
  · rintro ⟨⟨hdvd, hge⟩, hleast⟩
    have hother := hleast (show ((old : Int) + change + 3) / 4 * 4 ∈
      {n : Int | 4 ∣ n ∧ (old : Int) + change ≤ n} from ⟨Int.dvd_mul_left _ _, by omega⟩)
    omega
  · rintro ⟨hdvd, hge, hlt⟩
    refine ⟨⟨Int.dvd_of_emod_eq_zero hdvd, hge⟩, ?_⟩
    rintro n ⟨hn, hle⟩
    omega

/-- The remainder that `sys_sbrk` adds takes the sum to the next word in these cases
only. -/
theorem roundedUp_remainder_iff (hold : old < 2 ^ 32) (hlow : -2 ^ 31 ≤ change)
    (hhigh : change < 2 ^ 31) :
    RoundedUp old change
        (u32 (int32 (int32 (old + change) + (int32 (old + change)).tmod 4))) ↔
      Rounds (old + change) := by
  rw [roundedUp_iff, u32_int32, tmod_four, Rounds]
  have hsum : int32 ((old : Int) + change) =
      if ((old : Int) + change) % 2 ^ 32 < 2 ^ 31 then ((old : Int) + change) % 2 ^ 32
      else ((old : Int) + change) % 2 ^ 32 - 2 ^ 32 := by
    rw [int32, Int.bmod_def]
    rfl
  generalize int32 ((old : Int) + change) = n at hsum
  simp only [u32]
  split at hsum <;> split <;> omega

section Contract

variable {a : AsId} {m : Machine}

theorem sysSbrk_refused (hcur : m.tVmspace = some a) (hzero : change ≠ 0)
    (hrefused : Refused (layoutOf a m) change) :
    ∃ code, sysSbrk change m = .ok ⟨minusOne, some code⟩ m := by
  simp only [Refused, layoutOf, Addrspace.layout] at hrefused
  simp only [sysSbrk, bind, Prog.andThen, Prog.get, hcur]
  by_cases hunder : u32 ((m.addrspace a).heaptop + change) < (m.addrspace a).heapbottom
  · rw [if_pos hunder]
    exact ⟨.EINVAL, rfl⟩
  · have hover := hrefused.resolve_left hunder
    rw [if_neg hunder, if_neg hzero, if_pos hover]
    exact ⟨.ENOMEM, rfl⟩

theorem sysSbrk_moves (hcur : m.tVmspace = some a) (hzero : change ≠ 0)
    (hroom : ¬ Refused (layoutOf a m) change) (htop : (layoutOf a m).heaptop < 2 ^ 32) :
    ∃ m', sysSbrk change m = .ok ⟨(layoutOf a m).heaptop, none⟩ m' ∧
      (layoutOf a m').heaptop = u32 (int32 (int32 ((layoutOf a m).heaptop + change) +
        (int32 ((layoutOf a m).heaptop + change)).tmod 4)) := by
  obtain ⟨hunder, hover⟩ := not_or.mp hroom
  simp only [layoutOf, Addrspace.layout] at hunder hover htop ⊢
  have hold : u32 (int32 (m.addrspace a).heaptop) = (m.addrspace a).heaptop := by
    rw [u32_int32, u32]
    omega
  simp only [sysSbrk, bind, Prog.andThen, Prog.get, hcur]
  rw [if_neg hunder, if_neg hzero, if_neg hover, hold]
  exact ⟨_, rfl, by simp⟩

/-- The call keeps the contract where the change is not zero and is either refused or
rounded up by the remainder, or where there is no heap yet, and in no other case. -/
theorem sbrk_contract_iff (hcur : m.tVmspace = some a)
    (hheap : (layoutOf a m).heapbottom ≤ (layoutOf a m).heaptop)
    (hstack : (layoutOf a m).heaptop ≤ (layoutOf a m).stackvbase)
    (htop : (layoutOf a m).stackvbase < 2 ^ 32)
    (hlow : -2 ^ 31 ≤ change) (hhigh : change < 2 ^ 31) :
    KeepsContract a change m (sysSbrk change m) ↔ SbrkOk (layoutOf a m) change := by
  have hold : (layoutOf a m).heaptop < 2 ^ 32 := by omega
  by_cases hzero : change = 0
  case pos =>
    subst hzero
    have hunder : ¬ u32 ((m.addrspace a).heaptop + 0) < (m.addrspace a).heapbottom := by
      simp only [layoutOf, Addrspace.layout] at hheap hold
      rw [u32]
      omega
    have hbottom : sysSbrk 0 m = .ok ⟨(layoutOf a m).heapbottom, none⟩ m := by
      simp only [sysSbrk, bind, Prog.andThen, Prog.get, hcur]
      rw [if_neg hunder, if_pos trivial]
      rfl
    rw [hbottom, KeepsContract, roundedUp_iff, SbrkOk, if_pos rfl]
    omega
  case neg =>
    rw [SbrkOk, if_neg hzero]
    by_cases hrefused : Refused (layoutOf a m) change
    case pos =>
      obtain ⟨code, hrun⟩ := sysSbrk_refused hcur hzero hrefused
      rw [hrun]
      exact iff_of_true rfl (Or.inl hrefused)
    case neg =>
      obtain ⟨m', hrun, hmoved⟩ := sysSbrk_moves hcur hzero hrefused hold
      rw [hrun, KeepsContract, hmoved, roundedUp_remainder_iff hold hlow hhigh]
      constructor
      · intro hcontract
        exact Or.inr hcontract.2
      · intro hrounds
        exact ⟨rfl, hrounds.resolve_left hrefused⟩

end Contract

/-- Under the contract the area of a call lies below that of the next one. -/
theorem KeepsContract.below_next {a : AsId} {m m₁ m₂ : Machine}
    (hfirst : KeepsContract a n₁ m (.ok ⟨p, none⟩ m₁))
    (hnext : KeepsContract a n₂ m₁ (.ok ⟨q, none⟩ m₂)) : (p : Int) + n₁ ≤ q := by
  obtain ⟨rfl, hrounded⟩ := hfirst
  obtain ⟨rfl, -⟩ := hnext
  exact (roundedUp_iff.mp hrounded).2.1

theorem sbrk_contract_iff_page : KeepsContract 0 0x1000 threeStackPages
    (sysSbrk 0x1000 threeStackPages) :=
  (sbrk_contract_iff rfl (by decide) (by decide) (by decide) (by decide) (by decide)).mpr
    (by decide)

/-- There is a page of heap.  A call with zero returns the bottom of the heap, and a call
with one leaves an end that is no multiple of four. -/
theorem sbrk_breaks_contract :
    (∃ m, sysSbrk 0 threeStackPages = .ok ⟨0x10001000, none⟩ m ∧
      (layoutOf 0 threeStackPages).heaptop = 0x10002000 ∧
      ¬ KeepsContract 0 0 threeStackPages (sysSbrk 0 threeStackPages)) ∧
    ∃ m, sysSbrk 1 threeStackPages = .ok ⟨0x10002000, none⟩ m ∧
      (layoutOf 0 m).heaptop = 0x10002002 ∧
      ¬ KeepsContract 0 1 threeStackPages (sysSbrk 1 threeStackPages) := by
  have hzero : (sysSbrk 0 threeStackPages).returned = some ⟨0x10001000, none⟩ := by
    decide
  have hone : (sysSbrk 1 threeStackPages).returned = some ⟨0x10002000, none⟩ := by
    decide +kernel
  have hend : (layoutOf 0 ((sysSbrk 1 threeStackPages).stateD threeStackPages)).heaptop =
      0x10002002 := by
    decide
  have hrun := Result.eq_ok_of_returned threeStackPages hzero
  have hrun' := Result.eq_ok_of_returned threeStackPages hone
  refine ⟨⟨_, hrun, rfl, ?_⟩, _, hrun', hend, ?_⟩
  · rw [hrun]
    intro hcontract
    exact absurd hcontract.1 (by decide)
  · rw [hrun']
    intro hcontract
    have hrounded := (roundedUp_iff.mp hcontract.2).1
    rw [hend] at hrounded
    exact absurd hrounded (by decide)

end OS161.Userprog
