import OS161.Data.Seq
import OS161.VM.Ownership

namespace OS161.VM.Machine

open OS161.Data
open OS161.Kern
open OS161.Lib

/-! Runs. -/

inductive Event where
  | vmFault (faulttype : FaultType) (address : Nat)
  | evict (vaddr : Nat)
  | swapIn (vaddr slot : Nat)
  /-- Another thread runs. -/
  | switch
  /-- The processor reads and writes memory and the TLB. -/
  | user

/-- One call that comes back, or what happens between calls.  The processor
raises a fault only where the TLB has no entry. -/
inductive Step : Machine → Event → Machine → Prop where
  | vmFault (hmiss : m.translate address = none)
      (hdone : vmFault depth faulttype address m = .ok () m') :
      Step m (.vmFault faulttype address) m'
  | vmFaultError (hmiss : m.translate address = none)
      (hdone : vmFault depth faulttype address m = .error code m') :
      Step m (.vmFault faulttype address) m'
  | evict (hdone : evict (kernelTouch depth) vaddr m = .ok done m') :
      Step m (.evict vaddr) m'
  | swapIn (hdone : swapIn (kernelTouch depth) vaddr slot m = .ok done m') :
      Step m (.swapIn vaddr slot) m'
  | switch (tVmspace : Option AsId) (pid : Nat) :
      Step m .switch { m with tVmspace := tVmspace, pid := pid }
  | user (ram : Nat → Byte) (tlb : Nat → TlbEntry) (asid : Nat) :
      Step m .user { m with ram := ram, tlb := tlb, asid := asid }

/-- A page that is swapped in goes to a frame whose coremap entry still names
the page's address space. -/
def Event.BackPointer (m : Machine) : Event → Prop
  | .swapIn _ slot => ∀ index, m.gblBmp.Lowest index →
      (m.coremap index).addr = (m.swapHolder slot).addr
  | _ => True

/-- A step that meets the condition under which the pager keeps ownership. -/
def KeepingStep (m m' : Machine) : Prop :=
  ∃ event, Step m event m' ∧ event.BackPointer m

variable {m m' : Machine}

theorem KeepingStep.keeps (hstep : KeepingStep m m')
    (hsound : m.Sound m.tVmspace) : m'.Sound m'.tVmspace := by
  obtain ⟨event, hstep, hback⟩ := hstep
  have hkeep {cur : Option AsId} (h : m'.Sound cur) : m'.Sound m'.tVmspace := by
    rw [h.current]
    exact h
  cases hstep with
  | vmFault hmiss hdone =>
      exact hkeep ((vmFault_sound _ _ hsound hmiss).post_of_ok hdone)
  | vmFaultError hmiss hdone =>
      exact hkeep ((vmFault_sound _ _ hsound hmiss).fails_of_error hdone)
  | evict hdone => exact hkeep ((evict_sound hsound _ _).post_of_ok hdone)
  | swapIn hdone => exact hkeep ((swapIn_sound hsound hback _ _).post_of_ok hdone)
  | switch tVmspace pid =>
      have hother : OtherFrames m { m with tVmspace := tVmspace, pid := pid } :=
        ⟨rfl, rfl, rfl, fun _ h => h, fun _ _ => rfl, fun _ => rfl, fun _ _ => ⟨rfl, rfl⟩⟩
      exact ⟨hsound.toOwned.otherFrames hother, rfl, hsound.zeroed⟩
  | user ram tlb asid =>
      exact hsound.sameFrames ⟨rfl, rfl, rfl, fun _ _ => rfl, fun _ => rfl, fun _ => rfl,
        fun _ => rfl⟩ rfl rfl

/-- Resident pages have frames of their own, in use and recorded in the
coremap. -/
def FrameOwnership (m : Machine) : Prop :=
  (∀ a va frame a' va' frame', m.Resident a va frame → m.Resident a' va' frame' →
    (a, va) ≠ (a', va') → frame ≠ frame') ∧
  ∀ a va frame, m.Resident a va frame → ∃ n : Nat, frame = n ∧ m.Owns a va n

theorem Owned.frameOwnership (howned : m.Owned) : m.FrameOwnership := by
  refine ⟨?_, howned.resident⟩
  rintro a va frame a' va' frame' hres hres' hne rfl
  obtain ⟨n, rfl, howns⟩ := howned.resident a va frame hres
  obtain ⟨n', hn, howns'⟩ := howned.resident a' va' n hres'
  obtain rfl : n = n' := by omega
  have haddr := howns.addr.symm.trans howns'.addr
  rw [Option.some.injEq] at haddr
  rw [haddr, ← howns.va, ← howns'.va] at hne
  exact hne rfl

theorem frame_ownership (howned : m.Owned) (hzeroed : ∀ n j, m.kmallocWords n j = 0)
    (hrun : Relation.ReflTransGen KeepingStep m m') : m'.FrameOwnership := by
  have hsound := invariant_of_steps (fun m => m.Sound m.tVmspace) hrun
    ⟨howned, rfl, hzeroed⟩ (fun _ _ hbefore hstep => hstep.keeps hbefore)
  exact hsound.toOwned.frameOwnership

/-- A page table that is made at boot has no pages in memory yet. -/
theorem coremapInit_owned (hempty : ∀ a va frame, ¬ m.Resident a va frame)
    (hroom : firstaddr + 3 * PAGE_SIZE ≤ lastaddr) (hlast : lastaddr < 2 ^ 32) :
    Prog.wp (coremapInit firstaddr lastaddr) (fun _ m' => m'.Owned)
      (fun _ _ => False) (fun _ => True) m := by
  have hpages : (lastaddr + 2 ^ 32 - (firstaddr + 3 * PAGE_SIZE)) % 2 ^ 32 =
      lastaddr - (firstaddr + 3 * PAGE_SIZE) := by
    omega
  simp only [coremapInit, onGblBmp, ↓Prog.wp_bind, ↓Prog.wp_modify, ↓Prog.wp_zoom,
    Bitmap.wp_bitmapMark, hpages]
  repeat'
    split
    case isFalse => trivial
  refine ⟨?_, ?_, rfl, ?_, ?_, ?_⟩
  · simp [PAGE_SIZE]
  · simp only [PAGE_SIZE] at hroom ⊢
    omega
  · intro i hi
    simp only [Bitmap.isset_mark, Bool.or_eq_true, decide_eq_true_eq]
    omega
  · intro i hlow hi
    simp [hlow, hi]
  · intro a va frame hres
    exact absurd ⟨hres.aligned, hres.nonzero, hres.entry⟩ (hempty a va frame)

/-- One process without pages, before `coremap_init`. -/
def powerOn : Machine where
  ram _ := 0
  tlb := .invalid
  asid := 0
  swapDisk _ := 0
  lhClear := true
  coremap _ := ⟨0, 0, none, 0, 0, false, false⟩
  swapHolder _ := ⟨0, 0, none, 0, 0, false, false⟩
  gblBmp := Bitmap.bitmapCreate 0
  swapBmp := Bitmap.bitmapCreate 4
  maxPageNum := 0
  memStart := 0
  ref := 0
  addrspace _ := {
    asVnode := fun _ _ => ([], none)
    filesizeData := 0
    offData := 0
    filesizeText := 0
    offText := 0
    firstpt := fun _ => none
    asVbase1 := 0x400000
    asNpages1 := 1
    asVbase2 := 0x10000000
    asNpages2 := 1
    heaptop := 0x10001000
    heapbottom := 0x10001000
    asPbase1 := 0
    asPbase2 := 0
    asStackvbase := 0x80000000 }
  tVmspace := some 0
  pid := 2
  kmallocWords _ _ := 0
  kmallocs := 0

private theorem powerOn_empty (a : AsId) (va : Nat) (frame : Int) :
    ¬ powerOn.Resident a va frame := by
  intro hres
  have hentry := hres.entry
  simp [pte, powerOn] at hentry

/-- Six frames, three of them free. -/
def booted : Machine := (coremapInit 0x40000 0x49000 powerOn).stateD powerOn

theorem booted_owned : booted.Owned := by
  have hboot := @coremapInit_owned powerOn 0x40000 0x49000 powerOn_empty (by decide)
    (by decide)
  have hok : (coremapInit 0x40000 0x49000 powerOn).returned = some () := by
    decide
  exact hboot.post_of_ok (Result.eq_ok_of_returned powerOn hok)

def afterFirst : Machine :=
  (vmFault 3 .VM_FAULT_WRITE 0x20000000 booted).stateD booted

def afterSecond : Machine :=
  (vmFault 3 .VM_FAULT_WRITE 0x20001000 afterFirst).stateD afterFirst

private theorem first_fault : Step booted (.vmFault .VM_FAULT_WRITE 0x20000000) afterFirst := by
  have hok : (vmFault 3 .VM_FAULT_WRITE 0x20000000 booted).returned = some () := by
    decide
  exact .vmFault (by decide) (Result.eq_ok_of_returned booted hok)

private theorem second_fault :
    Step afterFirst (.vmFault .VM_FAULT_WRITE 0x20001000) afterSecond := by
  have hok : (vmFault 3 .VM_FAULT_WRITE 0x20001000 afterFirst).returned = some () := by
    decide
  exact .vmFault (by decide) (Result.eq_ok_of_returned afterFirst hok)

theorem frame_ownership_two_pages :
    afterSecond.pte 0 0x20000000 = some 8 ∧ afterSecond.pte 0 0x20001000 = some 10 ∧
    afterSecond.FrameOwnership := by
  refine ⟨by decide, by decide, ?_⟩
  apply frame_ownership booted_owned (fun _ _ => rfl)
  exact .tail (.single ⟨_, first_fault, trivial⟩) ⟨_, second_fault, trivial⟩

def afterEvict : Machine :=
  (evict (kernelTouch 3) 0x20001000 afterSecond).stateD afterSecond

private def afterSwapIn : Machine :=
  (swapIn (kernelTouch 3) 0x20001000 0 afterEvict).stateD afterEvict

/-- The first page goes to slot 0 and comes back from it: its entry names frame
4, whose coremap entry names no address space. -/
theorem swap_in_loses_back_pointer :
    booted.Owned ∧ (∀ n j, booted.kmallocWords n j = 0) ∧
    Relation.ReflTransGen (fun m m' => ∃ event, Step m event m') booted afterSwapIn ∧
    ¬ afterSwapIn.FrameOwnership := by
  have hevict : (evict (kernelTouch 3) 0x20001000 afterSecond).returned = some true := by
    decide
  have hswapIn : (swapIn (kernelTouch 3) 0x20001000 0 afterEvict).returned = some true := by
    decide
  have hrun : Relation.ReflTransGen (fun m m' => ∃ event, Step m event m')
      booted afterSecond := .tail (.single ⟨_, first_fault⟩) ⟨_, second_fault⟩
  refine ⟨booted_owned, fun _ _ => rfl, ?_, ?_⟩
  · exact .tail (.tail hrun ⟨_, .evict (Result.eq_ok_of_returned _ hevict)⟩)
      ⟨_, .swapIn (Result.eq_ok_of_returned _ hswapIn)⟩
  · rintro ⟨-, howns⟩
    have hres : afterSwapIn.Resident 0 0x20000000 4 :=
      ⟨by decide, by decide, by decide⟩
    obtain ⟨n, hn, hn'⟩ := howns 0 0x20000000 4 hres
    obtain rfl : 4 = n := by omega
    have haddr : (afterSwapIn.coremap 4).addr = none := by
      decide +kernel
    rw [hn'.addr] at haddr
    cases haddr

end OS161.VM.Machine
