import OS161.VM.Paging

namespace OS161.VM.Machine

open OS161.Data
open OS161.Kern
open OS161.Lib

variable {m m' : Machine} {a : AsId} {fa : Nat}

/-! A page whose entry holds a swap slot and that no TLB entry maps. -/

structure SwappedOut (m : Machine) (a : AsId) (fa : Nat) : Prop where
  current : m.tVmspace = some a
  entry : ∃ slot : Nat, m.pte a fa = some ((slot : Int) * 2 + 1)
  miss : m.translate fa = none

theorem SwappedOut.congr (hout : m.SwappedOut a fa)
    (hcurrent : m'.tVmspace = m.tVmspace) (hpte : m'.pte a fa = m.pte a fa)
    (htlb : m'.tlb = m.tlb) (hasid : m'.asid = m.asid) : m'.SwappedOut a fa := by
  refine ⟨hcurrent.trans hout.current, ?_, ?_⟩
  · rw [hpte]
    exact hout.entry
  · have hmiss := hout.miss
    unfold translate lookup matching at hmiss ⊢
    simpa only [htlb, hasid] using hmiss

theorem SwappedOut.entry_isSome (hout : m.SwappedOut a fa) : (m.pte a fa).isSome := by
  obtain ⟨slot, hslot⟩ := hout.entry
  rw [hslot]
  rfl

theorem SwappedOut.setPte (hout : m.SwappedOut a fa) (a' : AsId) (va : Nat)
    (slot : Nat) : (m.setPte a' va (slot * 2 + 1)).SwappedOut a fa := by
  refine ⟨hout.current, ?_, hout.miss⟩
  rw [pte_setPte]
  split
  case isTrue hsame =>
      obtain ⟨old, hold⟩ := hout.entry
      obtain ⟨rfl, htop, hbtm⟩ := hsame
      have hentry : m.pte a va = m.pte a fa := by
        rw [pte, pte, htop, hbtm]
      rw [hentry, hold]
      exact ⟨slot, rfl⟩
  case isFalse => exact hout.entry

/-- The kernel cannot get at the page. -/
abbrev NeverTouches (touch : Bool → Nat → Op Nat) (a : AsId) (fa : Nat) : Prop :=
  ∀ write m, SwappedOut m a fa → Prog.wp (touch write fa) (fun _ _ => False)
    (fun _ _ => False) (fun _ => True) m

section Swapped

variable {touch : Bool → Nat → Op Nat}

theorem lhdIo_swappedOut (htouch : NeverTouches touch a fa)
    (hout : m.SwappedOut a fa) (write : Bool) (move : Nat → Machine → Machine) :
    Prog.wp (lhdIo touch write fa move) (fun _ _ => False) (fun _ _ => False)
      (fun _ => True) m := by
  simp only [lhdIo, ↓Prog.wp_bind, ↓Prog.wp_get, ↓Prog.wp_assert, ↓Prog.wp_modify]
  split
  case isTrue =>
      refine Prog.wp_mono (htouch write _ (hout.congr rfl rfl rfl rfl)) ?_
        (fun _ _ h => h) (fun _ h => h)
      exact fun _ _ h => h.elim
  case isFalse => trivial

/-- `evict` for a page that is itself swapped out copies that very page, so it
only comes back when the swap space is full. -/
theorem evict_swappedOut (htouch : NeverTouches touch a fa)
    (hout : m.SwappedOut a fa) :
    Prog.wp (evict touch fa) (fun done m' => done = false ∧ m'.SwappedOut a fa)
      (fun _ _ => False) (fun _ => True) m := by
  simp only [evict, onSwapBmp, onGblBmp, ↓Prog.wp_bind, ↓Prog.wp_attempt, ↓Prog.wp_zoom]
  refine Prog.wp_mono (Bitmap.bitmapAlloc_wp m.swapBmp) ?_ ?_ (fun _ _ => trivial)
  · rintro slot swapBmp ⟨-, -, rfl⟩
    simp only [↓Prog.wp_get, ↓Prog.wp_modify, Bitmap.wp_bitmapUnmark, ↓Prog.wp_assert]
    split
    case isFalse => trivial
    case isTrue =>
    split
    case isFalse => trivial
    case isTrue =>
    split
    case isFalse => trivial
    case isTrue =>
    split
    case h_1 => trivial
    case h_2 victim haddr =>
        simp only [↓Prog.wp_bind, wp_writePte, setCoremap, ↓Prog.wp_modify]
        split
        case isFalse => trivial
        case isTrue =>
            refine Prog.wp_mono (lhdIo_swappedOut htouch ?_ false _) ?_
              (fun _ _ h => h) (fun _ h => h)
            · exact (hout.setPte victim _ slot).congr rfl rfl rfl rfl
            · exact fun _ _ h => h.elim
  · rintro code swapBmp ⟨-, rfl, -⟩
    exact ⟨rfl, hout.congr rfl rfl rfl rfl⟩

theorem swapHandler_swappedOut (htouch : NeverTouches touch a fa)
    (hout : m.SwappedOut a fa) (index : Nat) :
    Prog.wp (swapHandler touch index fa)
      (fun done m' => done = false ∧ m'.SwappedOut a fa)
      (fun _ _ => False) (fun _ => True) m := by
  simp only [swapHandler, ↓Prog.wp_bind]
  refine Prog.wp_mono (evict_swappedOut htouch hout) ?_ (fun _ _ h => h) (fun _ h => h)
  rintro done m' ⟨rfl, hout'⟩
  simpa using hout'

theorem mapPage_swappedOut (htouch : NeverTouches touch a fa)
    (hout : m.SwappedOut a fa) :
    Prog.wp (mapPage touch a fa) (fun _ _ => False)
      (fun _ m' => m'.SwappedOut a fa) (fun _ => True) m := by
  obtain ⟨slot, hslot⟩ := hout.entry
  have hodd : ((slot : Int) * 2 + 1).tmod 2 = 1 := by
    rw [Int.tmod_eq_emod_of_nonneg (by omega)]
    omega
  simp only [mapPage, ↓Prog.wp_bind, ↓Prog.wp_when, wp_readPte, hslot, hodd, ↓Prog.wp_ite,
    if_true]
  refine Prog.wp_mono (swapHandler_swappedOut htouch hout _) ?_
    (fun _ _ h => h.elim) (fun _ h => h)
  rintro done m' ⟨rfl, hout'⟩
  simpa using hout'

theorem vmFaultWith_swappedOut (htouch : NeverTouches touch a (pageFrame address))
    (hout : m.SwappedOut a (pageFrame address)) (faulttype : FaultType) :
    Prog.wp (vmFaultWith touch faulttype address) (fun _ _ => False)
      (fun _ m' => m'.SwappedOut a (pageFrame address)) (fun _ => True) m := by
  simp only [vmFaultWith, ↓Prog.wp_ite, ↓Prog.wp_fail, ↓Prog.wp_panic, ↓Prog.wp_bind,
    ↓Prog.wp_get, hout.current]
  split
  case isTrue => exact hout
  case isFalse =>
  split
  case isTrue => trivial
  case isFalse =>
  split
  case isTrue => exact hout
  case isFalse =>
  apply growStack_wp
  intro base
  apply checkSetup_wp _ trivial
  have hmoved : SwappedOut (m.withStackvbase a base) a (pageFrame address) :=
    hout.congr rfl (pte_withStackvbase ..) rfl rfl
  rw [makeTable_of_entry hmoved.entry_isSome]
  refine Prog.wp_mono (mapPage_swappedOut htouch hmoved) ?_ (fun _ _ h => h)
    (fun _ h => h)
  exact fun _ _ h => h.elim

theorem access_swappedOut {fault : Nat → Op Unit}
    (hfault : ∀ m, SwappedOut m a fa → Prog.wp (fault fa) (fun _ _ => False)
      (fun _ _ => True) (fun _ => True) m) (turns : Nat) :
    NeverTouches (access fault turns) a fa := by
  intro write m hout
  cases turns with
  | zero => trivial
  | succ turns =>
      simp only [access, ↓Prog.wp_bind, ↓Prog.wp_get, hout.miss, ↓Prog.wp_attempt]
      refine Prog.wp_mono (hfault m hout) ?_ (fun _ _ _ => trivial) (fun _ h => h)
      exact fun _ _ h => h.elim

end Swapped

theorem vmFault_swappedOut (depth : Nat) (faulttype : FaultType)
    (hout : m.SwappedOut a (pageFrame address)) :
    Prog.wp (vmFault depth faulttype address) (fun _ _ => False)
      (fun _ m' => m'.SwappedOut a (pageFrame address)) (fun _ => True) m := by
  induction depth generalizing m address faulttype with
  | zero => trivial
  | succ depth ih =>
      refine vmFaultWith_swappedOut ?_ hout faulttype
      apply access_swappedOut
      intro m' hout'
      rw [← pageFrame_idem] at hout'
      exact Prog.wp_mono (ih .VM_FAULT_READ hout') (fun _ _ h => h)
        (fun _ _ _ => trivial) (fun _ h => h)

theorem vmFault_neverTouches (depth address : Nat) :
    NeverTouches (access (vmFault depth .VM_FAULT_READ) (depth + 1)) a
      (pageFrame address) := by
  apply access_swappedOut
  intro m hout
  rw [← pageFrame_idem] at hout
  exact Prog.wp_mono (vmFault_swappedOut depth .VM_FAULT_READ hout) (fun _ _ h => h)
    (fun _ _ _ => trivial) (fun _ h => h)

/-- The fault brought the page back: its entry names a frame that holds the
bytes `page`, and the slot is free. -/
def SwapRoundTrip (a : AsId) (va slot : Nat) (page : Nat → Byte)
    (result : Result Errno Fault Machine Unit) : Prop :=
  ∃ (m' : Machine) (frame : Nat),
    (result = .ok () m' ∨ ∃ code, result = .error code m') ∧
    frame ≠ 0 ∧ m'.pte a va = some ((frame : Int) * 2) ∧
    (∀ o < PAGE_SIZE, m'.ram ((m'.coremap frame).pa + o) = page o) ∧
    m'.swapBmp.bitmapIsset slot = false

theorem SwappedOut.not_swapRoundTrip (hout : m.SwappedOut a (pageFrame address))
    (depth : Nat) (faulttype : FaultType) (slot : Nat) (page : Nat → Byte) :
    ¬ SwapRoundTrip a (pageFrame address) slot page
      (vmFault depth faulttype address m) := by
  rintro ⟨m', frame, hresult, -, hframe, -, -⟩
  have hfault := vmFault_swappedOut depth faulttype hout
  unfold Prog.wp at hfault
  rcases hresult with hok | ⟨code, herror⟩
  · rw [hok] at hfault
    exact hfault
  · rw [herror] at hfault
    obtain ⟨other, hother⟩ := SwappedOut.entry hfault
    rw [hframe, Option.some.injEq] at hother
    omega

/-- Whatever bytes the page had and whatever slot it went to, a fault on it
takes the branch that evicts through the page itself: it ends with an error
code and the entry still in the swap space, or it does not come back. -/
theorem swapped_page_never_returns (depth : Nat) (faulttype : FaultType)
    (slot : Nat) (page : Nat → Byte) (hcurrent : m.tVmspace = some a)
    (hentry : m.pte a (pageFrame address) = some ((slot : Int) * 2 + 1))
    (hmiss : m.translate (pageFrame address) = none) :
    ¬ SwapRoundTrip a (pageFrame address) slot page
      (vmFault depth faulttype address m) :=
  SwappedOut.not_swapRoundTrip ⟨hcurrent, ⟨slot, hentry⟩, hmiss⟩ depth faulttype slot page

/-- One address space with two resident heap pages, in the only frames that can
be evicted, and three free swap slots. -/
private def fullMemory : Machine where
  ram _ := 7
  tlb := .invalid
  asid := 0
  swapDisk _ := 0
  lhClear := true
  coremap i := ⟨0x20000000 + (i - 3) * 4096, 0x40000 + i * 4096, some 0, 1, i, true, false⟩
  swapHolder _ := ⟨0, 0, none, 0, 0, false, false⟩
  gblBmp := ⟨5, fun _ => 0xff⟩
  swapBmp := ⟨3, fun _ => 0xf8⟩
  maxPageNum := 5
  memStart := 0x40000
  ref := 9
  addrspace _ := {
    asVnode := fun _ _ => ([], none)
    filesizeData := 0
    offData := 0
    filesizeText := 0
    offText := 0
    firstpt := fun top =>
      if top = 128 then some fun btm => if btm < 2 then 6 + 2 * btm else 0 else none
    asVbase1 := 0x400000
    asNpages1 := 1
    asVbase2 := 0x10000000
    asNpages2 := 1
    heaptop := 0x10001000
    heapbottom := 0x10001000
    asPbase1 := 0
    asPbase2 := 0
    asStackvbase := 0x80000000 }
  tVmspace := some 0
  pid := 2
  kmallocWords _ _ := 0
  kmallocs := 0

/-- The state after another page of the heap was touched. -/
private def pageEvicted : Machine :=
  (vmFault 3 .VM_FAULT_WRITE 0x20002000 fullMemory).stateD fullMemory

private theorem pageEvicted_current : pageEvicted.tVmspace = some 0 := by
  decide +kernel

private theorem pageEvicted_entry :
    pageEvicted.pte 0 (pageFrame 0x20000000) = some (((0 : Nat) : Int) * 2 + 1) := by
  decide +kernel

private theorem pageEvicted_miss :
    pageEvicted.translate (pageFrame 0x20000000) = none := by
  decide +kernel

theorem swapped_page_never_returns_slot_zero :
    pageEvicted.translate (pageFrame 0x20000000) = none ∧
    ¬ SwapRoundTrip 0 (pageFrame 0x20000000) 0 (fun _ => 7)
      (vmFault 3 .VM_FAULT_READ 0x20000000 pageEvicted) :=
  ⟨pageEvicted_miss, swapped_page_never_returns 3 .VM_FAULT_READ 0 _
    pageEvicted_current pageEvicted_entry pageEvicted_miss⟩

/-- Touching a third page sends the first one to slot 0; the fault on it that
follows does not bring it back. -/
theorem evicted_page_not_restored :
    fullMemory.pte 0 (pageFrame 0x20000000) = some 6 ∧
    vmFault 3 .VM_FAULT_WRITE 0x20002000 fullMemory = .ok () pageEvicted ∧
    pageEvicted.tVmspace = some 0 ∧
    pageEvicted.pte 0 (pageFrame 0x20000000) = some (((0 : Nat) : Int) * 2 + 1) ∧
    pageEvicted.translate (pageFrame 0x20000000) = none ∧
    ¬ SwapRoundTrip 0 (pageFrame 0x20000000) 0
      (fun o => fullMemory.ram ((fullMemory.coremap 3).pa + o))
      (vmFault 3 .VM_FAULT_READ 0x20000000 pageEvicted) := by
  have hok : (vmFault 3 .VM_FAULT_WRITE 0x20002000 fullMemory).returned = some () := by
    decide +kernel
  have hout : pageEvicted.SwappedOut 0 (pageFrame 0x20000000) :=
    ⟨pageEvicted_current, ⟨0, pageEvicted_entry⟩, pageEvicted_miss⟩
  exact ⟨by decide, Result.eq_ok_of_returned _ hok, hout.current,
    pageEvicted_entry, hout.miss, hout.not_swapRoundTrip 3 .VM_FAULT_READ 0 _⟩

end OS161.VM.Machine
