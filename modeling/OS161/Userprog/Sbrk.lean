import OS161.VM.Layout

namespace OS161.Userprog

open OS161.Data
open OS161.Kern
open OS161.VM

/-! `kern/userprog/sbrk.c`: the end of the heap, against the stack that faults
move. -/

/-- The pointer that `sys_sbrk` returns, and the code that it stores through
`retval`. -/
structure SbrkReturn where
  htop : Nat
  retval : Option Errno
  deriving DecidableEq, Repr

/-- `(void *)-1`. -/
def minusOne : Nat := 2 ^ 32 - 1

def sysSbrk (change : Int) : VM.Op SbrkReturn := do
  let m ← Prog.get
  match m.tVmspace with
  | none => Prog.panic .kernelFault
  | some a => do
      let as := m.addrspace a
      if u32 (as.heaptop + change) < as.heapbottom then
        pure ⟨minusOne, some .EINVAL⟩
      else if change = 0 then
        pure ⟨as.heapbottom, none⟩
      else do
        let newHpos := int32 (as.heaptop + change)
        let oldHpos := int32 as.heaptop
        let rounded := int32 (newHpos + newHpos.tmod 4)
        if u32 rounded > as.asStackvbase then
          pure ⟨minusOne, some .ENOMEM⟩
        else do
          Machine.setAddrspace a fun as => { as with heaptop := u32 rounded }
          pure ⟨u32 oldHpos, none⟩

/-- The end of the heap after `sys_sbrk(change)`. -/
def heaptopAfter (l : Layout) (change : Int) : Nat :=
  let newHpos := int32 (l.heaptop + change)
  let rounded := int32 (newHpos + newHpos.tmod 4)
  if u32 (l.heaptop + change) < l.heapbottom ∨ change = 0 ∨ u32 rounded > l.stackvbase then
    l.heaptop
  else u32 rounded

theorem sysSbrk_returns (hlaid : Machine.LaidOut a l m) (change : Int) :
    (sysSbrk change).Returns
      (fun _ m' => Machine.LaidOut a { l with heaptop := heaptopAfter l change } m') m := by
  obtain ⟨hcur, rfl⟩ := hlaid
  simp only [sysSbrk, Machine.setAddrspace, Prog.Returns, ↓Prog.wp_bind, ↓Prog.wp_get, hcur,
    ↓Prog.wp_ite, ↓Prog.wp_pure, ↓Prog.wp_modify]
  have hstays (hkept : heaptopAfter (m.addrspace a).layout change = (m.addrspace a).heaptop) :
      Machine.LaidOut a { (m.addrspace a).layout with
        heaptop := heaptopAfter (m.addrspace a).layout change } m := by
    rw [hkept]
    exact ⟨hcur, rfl⟩
  split
  case isTrue hunder => exact hstays (if_pos (.inl hunder))
  case isFalse hunder =>
  split
  case isTrue hzero => exact hstays (if_pos (.inr (.inl hzero)))
  case isFalse hzero =>
  split
  case isTrue hover => exact hstays (if_pos (.inr (.inr hover)))
  case isFalse hover =>
    refine ⟨rfl, ?_⟩
    have hmoved : heaptopAfter (m.addrspace a).layout change =
        u32 (int32 (int32 ((m.addrspace a).heaptop + change) +
          (int32 ((m.addrspace a).heaptop + change)).tmod 4)) := by
      refine if_neg ?_
      rintro (h | h | h)
      · exact hunder h
      · exact hzero h
      · exact hover h
    rw [hmoved]
    simp [Addrspace.layout]

/-- The heap lies below the stack. -/
structure Apart (l : Layout) : Prop where
  heap : l.heapbottom ≤ l.heaptop
  between : l.heaptop ≤ l.stackvbase
  stack : l.stackvbase ≤ Machine.USERSTACK

theorem tmod_four (n : Int) : n.tmod 4 = if 0 ≤ n then n % 4 else -(-n % 4) := by
  split
  case isTrue hn => exact Int.tmod_eq_emod_of_nonneg hn
  case isFalse hn =>
    rw [← Int.tmod_eq_emod_of_nonneg (show 0 ≤ -n by omega), Int.neg_tmod, Int.neg_neg]

theorem u32_int32 (n : Int) : u32 (int32 n) = u32 n := by
  have hsame : n.bmod (2 ^ 32) % 2 ^ 32 = n % 2 ^ 32 := Int.bmod_emod
  rw [u32, int32, hsame, u32]

theorem int32_eq (hlow : -2 ^ 31 ≤ n) (hhigh : n < 2 ^ 32) :
    int32 n = if n < 2 ^ 31 then n else n - 2 ^ 32 := by
  rw [int32, Int.bmod_def]
  split <;> split <;> omega

/-- Rounding moves the end of the heap up, but for the one case in which the sum
leaves the range of an `int`. -/
theorem apart_heaptopAfter_iff (happart : Apart l) (haligned : l.heapbottom % PAGE_SIZE = 0)
    (hlow : -2 ^ 31 ≤ change) (hhigh : change < 2 ^ 31) :
    Apart { l with heaptop := heaptopAfter l change } ↔
      ¬ (l.heapbottom = Machine.USERSTACK ∧ change = 1) := by
  obtain ⟨hheap, hbetween, hstack⟩ := happart
  simp only [Machine.USERSTACK, PAGE_SIZE] at hstack haligned ⊢
  have hsum := int32_eq (show -2 ^ 31 ≤ (l.heaptop : Int) + change by omega) (by omega)
  have hrest := tmod_four (int32 (l.heaptop + change))
  by_cases hstay : u32 (l.heaptop + change) < l.heapbottom ∨ change = 0 ∨
      u32 (int32 (l.heaptop + change) + (int32 (l.heaptop + change)).tmod 4) > l.stackvbase
  · have hafter : heaptopAfter l change = l.heaptop := by
      simp only [heaptopAfter, u32_int32, if_pos hstay]
    rw [hafter]
    generalize int32 ((l.heaptop : Int) + change) = n at hsum hstay hrest
    generalize n.tmod 4 = r at hstay hrest
    simp only [u32] at hstay
    refine iff_of_true ⟨hheap, hbetween, hstack⟩ ?_
    split at hsum <;> split at hrest <;> omega
  · have hafter : heaptopAfter l change =
        u32 (int32 (l.heaptop + change) + (int32 (l.heaptop + change)).tmod 4) := by
      simp only [heaptopAfter, u32_int32, if_neg hstay]
    rw [hafter]
    generalize int32 ((l.heaptop : Int) + change) = n at hsum hstay hrest
    generalize n.tmod 4 = r at hstay hrest
    simp only [u32, not_or] at hstay ⊢
    constructor
    · rintro ⟨hheap', -, -⟩
      simp only at hheap'
      split at hsum <;> split at hrest <;> omega
    · intro hne
      refine ⟨?_, ?_, hstack⟩ <;> simp only <;> split at hsum <;> split at hrest <;> omega

theorem apart_grown_iff (happart : Apart l) (hfa : fa < Machine.USERSTACK) :
    Apart (l.grown fa) ∧ (l.grown fa).stackvbase ≤ l.stackvbase ↔
      (fa + PAGE_SIZE ≥ l.stackvbase → l.heaptop ≤ fa ∧ fa ≤ l.stackvbase) := by
  obtain ⟨hheap, hbetween, hstack⟩ := happart
  have hwrap : (fa + PAGE_SIZE) % 2 ^ 32 = fa + PAGE_SIZE := by
    simp only [Machine.USERSTACK, PAGE_SIZE] at hfa ⊢
    omega
  rw [Layout.grown, hwrap]
  split
  case isTrue hgrow =>
    constructor
    · rintro ⟨⟨-, habove, -⟩, hdown⟩ -
      exact ⟨habove, hdown⟩
    · intro hclear
      obtain ⟨habove, hdown⟩ := hclear hgrow
      exact ⟨⟨hheap, habove, Nat.le_of_lt hfa⟩, hdown⟩
  case isFalse hgrow =>
    exact iff_of_true ⟨⟨hheap, hbetween, hstack⟩, Nat.le_refl _⟩ fun h => absurd h hgrow

/-! Any calls of `sys_sbrk`, and any faults from the bottom of the heap on. -/

inductive Call where
  | sbrk (change : Int)
  | fault (address : Nat)
  deriving DecidableEq, Repr

def layoutOf (a : AsId) (m : Machine) : Layout :=
  (m.addrspace a).layout

inductive Step (a : AsId) (m : Machine) : Call → Machine → Prop
  | sbrk (hlow : -2 ^ 31 ≤ change) (hhigh : change < 2 ^ 31)
      (hrun : sysSbrk change m = .ok htop m') : Step a m (.sbrk change) m'
  | fault (hmiss : m.translate address = none) (huser : address < Machine.USERSTACK)
      (hpage : (layoutOf a m).heaptop ≤ pageFrame address ∨
        (layoutOf a m).heapbottom ≤ pageFrame address ∧
          pageFrame address < (layoutOf a m).heaptop)
      (hrun : Machine.vmFault depth faulttype address m = .ok () m') :
      Step a m (.fault address) m'

/-- A run, as the calls with the states that they lead to. -/
inductive Path (a : AsId) : Machine → List (Call × Machine) → Prop
  | nil : Path a m []
  | cons (hstep : Step a m call m') (hrest : Path a m' rest) : Path a m ((call, m') :: rest)

/-- After every call the heap lies below the stack, whose base has not gone up. -/
def StaysApart (a : AsId) : Machine → List (Call × Machine) → Prop
  | _, [] => True
  | m, (_, m') :: rest =>
      (Apart (layoutOf a m') ∧ (layoutOf a m').stackvbase ≤ (layoutOf a m).stackvbase) ∧
        StaysApart a m' rest

/-- The call does not take the heap past the top of the user's addresses; the
page of the fault does not move the base of the stack into the heap or up. -/
def Call.Clear (l : Layout) : Call → Prop
  | .sbrk change => ¬ (l.heapbottom = Machine.USERSTACK ∧ change = 1)
  | .fault address =>
      pageFrame address + PAGE_SIZE ≥ l.stackvbase →
        l.heaptop ≤ pageFrame address ∧ pageFrame address ≤ l.stackvbase

def AllClear (a : AsId) : Machine → List (Call × Machine) → Prop
  | _, [] => True
  | m, (call, m') :: rest => call.Clear (layoutOf a m) ∧ AllClear a m' rest

section Steps

variable {a : AsId} {m m' : Machine} {call : Call}

theorem Step.layout (hstep : Step a m call m') (hcur : m.tVmspace = some a)
    (happart : Apart (layoutOf a m)) (haligned : (layoutOf a m).heapbottom % PAGE_SIZE = 0) :
    m'.tVmspace = some a ∧ (layoutOf a m').heapbottom = (layoutOf a m).heapbottom ∧
      (Apart (layoutOf a m') ∧ (layoutOf a m').stackvbase ≤ (layoutOf a m).stackvbase ↔
        call.Clear (layoutOf a m)) := by
  have hlaid : Machine.LaidOut a (layoutOf a m) m := ⟨hcur, rfl⟩
  cases hstep with
  | sbrk hlow hhigh hrun =>
      obtain ⟨hcur', hlayout⟩ := (sysSbrk_returns hlaid _).post_of_ok hrun
      rw [layoutOf, hlayout]
      refine ⟨hcur', rfl, ?_⟩
      rw [and_iff_left (Nat.le_refl _)]
      exact apart_heaptopAfter_iff happart haligned hlow hhigh
  | @fault address _ _ _ hmiss huser hpage hrun =>
      have hpage' : pageFrame address < Machine.USERSTACK :=
        Nat.lt_of_le_of_lt (Nat.div_mul_le_self address PAGE_SIZE) huser
      have hfa : pageFrame address + PAGE_SIZE < 2 ^ 32 := by
        simp only [Machine.USERSTACK, PAGE_SIZE] at hpage' ⊢
        omega
      obtain ⟨hcur', hlayout⟩ := (Machine.vmFault_laidOut hlaid hmiss hfa _ _).post_of_ok hrun
      rw [layoutOf, hlayout]
      refine ⟨hcur', ?_, apart_grown_iff happart hpage'⟩
      rw [Layout.grown]
      split <;> rfl

end Steps

/-- The heap stays below the stack, and the stack's base does not go up, in the
runs in which no fault moves the base into the heap or up, and in no others. -/
theorem heap_stack_apart_iff {a : AsId} {m : Machine} (hcur : m.tVmspace = some a)
    (haligned : (layoutOf a m).heapbottom % PAGE_SIZE = 0) (happart : Apart (layoutOf a m))
    {path : List (Call × Machine)} (hpath : Path a m path) :
    StaysApart a m path ↔ AllClear a m path := by
  induction hpath with
  | nil => exact Iff.rfl
  | cons hstep _ ih =>
      obtain ⟨hcur', hbottom, hclear⟩ := hstep.layout hcur happart haligned
      rw [StaysApart, AllClear, hclear]
      apply and_congr_right
      intro hthis
      rw [← hclear] at hthis
      exact ih hcur' (hbottom ▸ haligned) hthis.1

/-- A process with one page of heap and three pages of stack, and one free
frame. -/
def threeStackPages : Machine where
  ram _ := 0
  tlb := .invalid
  asid := 0
  swapDisk _ := 0
  lhClear := true
  coremap i := ⟨0, 0x40000 + i * 4096, none, 0, i, false, false⟩
  swapHolder _ := ⟨0, 0, none, 0, 0, false, false⟩
  gblBmp := ⟨5, fun _ => 0xef⟩
  swapBmp := ⟨3, fun _ => 0xf8⟩
  maxPageNum := 5
  memStart := 0x40000
  ref := 9
  addrspace _ := {
    asVnode := fun _ _ => ([], none)
    filesizeData := 0
    offData := 0
    filesizeText := 0
    offText := 0
    firstpt := fun _ => some fun _ => 0
    asVbase1 := 0x400000
    asNpages1 := 1
    asVbase2 := 0x10000000
    asNpages2 := 1
    heaptop := 0x10002000
    heapbottom := 0x10001000
    asPbase1 := 0
    asPbase2 := 0
    asStackvbase := 0x7fffd000 }
  tVmspace := some 0
  pid := 2
  kmallocWords _ _ := 0
  kmallocs := 0

private def stackTouched : Machine :=
  (Machine.vmFault 2 .VM_FAULT_READ 0x7ffff000 threeStackPages).stateD threeStackPages

private theorem three_stack_pages_apart : Apart (layoutOf 0 threeStackPages) :=
  ⟨by decide, by decide, by decide⟩

private theorem top_page_touched :
    Step 0 threeStackPages (.fault 0x7ffff000) stackTouched := by
  have hok : (Machine.vmFault 2 .VM_FAULT_READ 0x7ffff000 threeStackPages).returned =
      some () := by
    decide
  exact .fault (by decide) (by decide) (.inl (by decide))
    (Result.eq_ok_of_returned threeStackPages hok)

/-- The heap grows by a page, so the base of the stack stays. -/
theorem heap_stack_apart_iff_page : ∃ m,
    Path 0 threeStackPages [(.sbrk 0x1000, m)] ∧
      StaysApart 0 threeStackPages [(.sbrk 0x1000, m)] := by
  have hok : (sysSbrk 0x1000 threeStackPages).returned = some ⟨0x10002000, none⟩ := by
    decide +kernel
  have hpath : Path 0 threeStackPages
      [(.sbrk 0x1000, (sysSbrk 0x1000 threeStackPages).stateD threeStackPages)] :=
    .cons (.sbrk (by decide) (by decide) (Result.eq_ok_of_returned threeStackPages hok)) .nil
  refine ⟨_, hpath, ?_⟩
  apply (heap_stack_apart_iff rfl (by decide) three_stack_pages_apart hpath).mpr
  exact ⟨fun h => absurd h.2 (by decide), trivial⟩

/-- The highest page of the stack faults after the two below it. -/
theorem stack_base_goes_up :
    threeStackPages.tVmspace = some 0 ∧ (layoutOf 0 threeStackPages).heapbottom % PAGE_SIZE = 0 ∧
      Apart (layoutOf 0 threeStackPages) ∧
      Path 0 threeStackPages [(.fault 0x7ffff000, stackTouched)] ∧
      ¬ StaysApart 0 threeStackPages [(.fault 0x7ffff000, stackTouched)] := by
  refine ⟨rfl, by decide, three_stack_pages_apart, .cons top_page_touched .nil, ?_⟩
  intro hstays
  have hdown := hstays.1.2
  have hup : ¬ (layoutOf 0 stackTouched).stackvbase ≤ (layoutOf 0 threeStackPages).stackvbase := by
    decide
  exact hup hdown

end OS161.Userprog
