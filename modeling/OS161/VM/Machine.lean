import OS161.Data.Bytes
import OS161.Lib.Bitmap

namespace OS161.VM

open OS161.Data
open OS161.Kern
open OS161.Lib

/-! The memory, the MMU and the tables behind `kern/vm/vm.c`.  Addresses are
natural numbers below `2 ^ 32`; an address space is named by the address of its
`struct addrspace`. -/

abbrev AsId := Nat

def PAGE_SIZE : Nat := 4096

def NUM_TLB : Nat := 64

def KSEG0 : Nat := 0x80000000

def TLBLO_VALID : Nat := 0x200

def TLBLO_DIRTY : Nat := 0x400

/-- The first page of the frame that holds `va`. -/
def pageFrame (va : Nat) : Nat := va / PAGE_SIZE * PAGE_SIZE

structure TlbEntry where
  ehi : Nat
  elo : Nat
  deriving DecidableEq, Repr

namespace TlbEntry

/-! The fields `TLBHI_VPAGE`, `TLBHI_PID`, `TLBLO_PPAGE`, `TLBLO_DIRTY` and
`TLBLO_VALID`. -/

def vpage (e : TlbEntry) : Nat := pageFrame e.ehi

def pid (e : TlbEntry) : Nat := e.ehi / 64 % 64

def ppage (e : TlbEntry) : Nat := pageFrame e.elo

def dirty (e : TlbEntry) : Bool := e.elo / TLBLO_DIRTY % 2 = 1

def valid (e : TlbEntry) : Bool := e.elo / TLBLO_VALID % 2 = 1

/-- `TLBHI_INVALID(i)` and `TLBLO_INVALID()`. -/
def invalid (i : Nat) : TlbEntry := ⟨(0x80000 + i) * 4096, 0⟩

end TlbEntry

/-- An entry of `coremap` or of `swap_holder`. -/
structure PageTableEntry where
  va : Nat
  pa : Nat
  addr : Option AsId
  npages : Nat
  time : Nat
  valid : Bool
  locked : Bool
  deriving DecidableEq, Repr

/-- What `VOP_READ` on the executable moves for an offset and a residue, and
the error it ends with. -/
abbrev Vnode := (offset resid : Nat) → List Byte × Option Errno

structure Addrspace where
  asVnode : Vnode
  filesizeData : Nat
  offData : Nat
  filesizeText : Nat
  offText : Nat
  firstpt : Nat → Option (Nat → Int)
  asVbase1 : Nat
  asNpages1 : Nat
  asVbase2 : Nat
  asNpages2 : Nat
  heaptop : Nat
  heapbottom : Nat
  asPbase1 : Nat
  asPbase2 : Nat
  asStackvbase : Nat

structure Machine where
  ram : Nat → Byte
  tlb : Nat → TlbEntry
  /-- The PID field of `c0_entryhi`, which every `TLB_Read` and `TLB_Write`
  reloads. -/
  asid : Nat
  swapDisk : Nat → Byte
  /-- Whether the semaphore `lh_clear` of the swap disk is free. -/
  lhClear : Bool
  coremap : Nat → PageTableEntry
  swapHolder : Nat → PageTableEntry
  gblBmp : Bitmap
  swapBmp : Bitmap
  maxPageNum : Nat
  memStart : Nat
  ref : Nat
  addrspace : AsId → Addrspace
  tVmspace : Option AsId
  pid : Nat
  /-- The words that `kmalloc` leaves in the tables it hands out, one table
  after the other, and how many it has handed out. -/
  kmallocWords : Nat → Nat → Int
  kmallocs : Nat

abbrev Op := Prog Errno Fault Machine

namespace Machine

def onGblBmp (body : Bitmap.Op α) : Op α :=
  Prog.zoom gblBmp (fun m b => { m with gblBmp := b }) body

def onSwapBmp (body : Bitmap.Op α) : Op α :=
  Prog.zoom swapBmp (fun m b => { m with swapBmp := b }) body

def setCoremap (index : Nat) (f : PageTableEntry → PageTableEntry) : Op Unit :=
  Prog.modify fun m =>
    { m with coremap := Function.update m.coremap index (f (m.coremap index)) }

def setAddrspace (a : AsId) (f : Addrspace → Addrspace) : Op Unit :=
  Prog.modify fun m =>
    { m with addrspace := Function.update m.addrspace a (f (m.addrspace a)) }

/-! The translation buffer. -/

def tlbRead (i : Nat) : Op TlbEntry := do
  let m ← Prog.get
  Prog.modify fun m => { m with asid := (m.tlb i).pid }
  pure (m.tlb i)

def tlbWrite (e : TlbEntry) (i : Nat) : Op Unit :=
  Prog.modify fun m => { m with tlb := Function.update m.tlb i e, asid := e.pid }

/-- The loop that writes an invalid entry into every slot. -/
def tlbFlush : Op Unit :=
  Prog.forFrom (fun i _ => tlbWrite (.invalid i) i) NUM_TLB 0 ()

def matching (m : Machine) (va : Nat) (i : Nat) : Bool :=
  (m.tlb i).vpage = pageFrame va ∧ (m.tlb i).pid = m.asid

/-- The slot that an access to a mapped address hits. -/
def lookup (m : Machine) (va : Nat) : Option TlbEntry :=
  match (List.range NUM_TLB).find? (m.matching va) with
  | some i => if (m.tlb i).valid then some (m.tlb i) else none
  | none => none

/-- The physical address of `va` and whether it may be written: `kseg0` and
`kseg1` are mapped directly, everything else by the TLB. -/
def translate (m : Machine) (va : Nat) : Option (Nat × Bool) :=
  if KSEG0 ≤ va ∧ va < 0xc0000000 then some (va % 0x20000000, true)
  else (m.lookup va).map fun e => (e.ppage + va % PAGE_SIZE, e.dirty)

/-! The two-level page tables. -/

def topten (va : Nat) : Nat := va / 2 ^ 22

def btmten (va : Nat) : Nat := va % 2 ^ 22 / 2 ^ 12

def pte (m : Machine) (a : AsId) (va : Nat) : Option Int :=
  ((m.addrspace a).firstpt (topten va)).map fun table => table (btmten va)

def readPte (a : AsId) (va : Nat) : Op Int := do
  match (← Prog.get).pte a va with
  | none => Prog.panic .nullTable
  | some entry => pure entry

def Addrspace.writeFirstpt (as : Addrspace) (top : Nat) (table : Nat → Int) :
    Addrspace :=
  { as with firstpt := Function.update as.firstpt top (some table) }

def writePte (a : AsId) (va : Nat) (entry : Int) : Op Unit := do
  match ((← Prog.get).addrspace a).firstpt (topten va) with
  | none => Prog.panic .nullTable
  | some table =>
      setAddrspace a fun as =>
        Addrspace.writeFirstpt as (topten va) (Function.update table (btmten va) entry)

/-! Frames. -/

/-- The entries below index 3 and the fields that are not set here keep what
`kmalloc` left in them. -/
def coremapInit (firstaddr lastaddr : Nat) : Op Unit := do
  let freeaddr := firstaddr + 3 * PAGE_SIZE
  let maxPageNum := (lastaddr + 2 ^ 32 - freeaddr) % 2 ^ 32 / PAGE_SIZE
  Prog.modify fun m => { m with
    maxPageNum := maxPageNum
    gblBmp := Bitmap.bitmapCreate maxPageNum
    coremap := fun i =>
      if 3 ≤ i ∧ i < maxPageNum then
        { m.coremap i with
          pa := freeaddr + i * PAGE_SIZE
          valid := false
          locked := false }
      else m.coremap i }
  onGblBmp (Bitmap.bitmapMark 0)
  onGblBmp (Bitmap.bitmapMark 1)
  onGblBmp (Bitmap.bitmapMark 2)
  Prog.modify fun m => { m with memStart := freeaddr }

/-- The frame's physical address and its index, or zero when no frame is
free. -/
def getSinglepage : Op (Nat × Nat) := do
  match ← Prog.attempt (onGblBmp Bitmap.bitmapAlloc) with
  | .error _ => pure (0, 0)
  | .ok index => do
      let m ← Prog.get
      setCoremap index fun e => { e with addr := m.tVmspace, time := m.ref }
      Prog.modify fun m => { m with ref := (m.ref + 1) % 2 ^ 32 }
      let m ← Prog.get
      pure ((m.coremap index).pa, index)

def ptInsert (vaddr paddr : Nat) : Op Unit := do
  let m ← Prog.get
  let index := (paddr + 2 ^ 32 - m.memStart) % 2 ^ 32 / PAGE_SIZE
  setCoremap index fun e => { e with
    va := vaddr
    pa := paddr
    valid := true
    time := m.ref
    addr := m.tVmspace }
  Prog.modify fun m => { m with ref := (m.ref + 1) % 2 ^ 32 }
  Prog.when (m.gblBmp.bitmapIsset index = false)
    (onGblBmp (Bitmap.bitmapMark index))

/-- `kmalloc` of a whole page ends in `getppages(1)`.  When no frame is free
it returns NULL, which its caller uses as a table. -/
def kmallocTable : Op (Nat → Int) := do
  let (paddr, index) ← getSinglepage
  Prog.assert (paddr ≠ 0) .nullTable
  setCoremap index fun e => { e with npages := 1 }
  ptInsert (paddr + KSEG0) paddr
  let m ← Prog.get
  Prog.modify fun m => { m with kmallocs := m.kmallocs + 1 }
  pure (m.kmallocWords m.kmallocs)

/-! Swapping. -/

/-- One turn of the loop in `find_fifo` with `secs` and `index_lowest`. -/
def findFifoTurn (m : Machine) (carried : Nat × Nat) (i : Nat) : Nat × Nat :=
  let e := m.coremap i
  match e.addr with
  | none => carried
  | some a =>
      if e.time ≤ carried.1 ∧ e.locked = false then
        match m.pte a e.va with
        | none => carried
        | some entry => if entry ≠ 0 then (e.time, i) else carried
      else carried

def findFifo (m : Machine) : Nat :=
  ((List.range' 3 (m.maxPageNum - 3)).foldl m.findFifoTurn (0xffffffff, 3)).2

section Paging

-- How the kernel reaches a page to read or to write it: the physical address,
-- after the faults it took on the way.
variable (touch : (write : Bool) → Nat → Op Nat)

/-- `VOP_WRITE` and `VOP_READ` on the swap disk: `lhd_io` holds `lh_clear` while
it moves a sector, so a fault inside it that starts swap I/O never returns. -/
def lhdIo (write : Bool) (vaddr : Nat) (move : (pa : Nat) → Machine → Machine) :
    Op Unit := do
  let m ← Prog.get
  Prog.assert (m.lhClear = true) .lhdDeadlock
  Prog.modify fun m => { m with lhClear := false }
  let pa ← touch write vaddr
  Prog.modify (move pa)
  Prog.modify fun m => { m with lhClear := true }

def copyOut (slot pa : Nat) (m : Machine) : Machine :=
  { m with swapDisk := fun b =>
      if slot * PAGE_SIZE ≤ b ∧ b < slot * PAGE_SIZE + PAGE_SIZE then
        m.ram (pa + (b - slot * PAGE_SIZE))
      else m.swapDisk b }

def copyIn (slot pa : Nat) (m : Machine) : Machine :=
  { m with ram := fun b =>
      if pa ≤ b ∧ b < pa + PAGE_SIZE then
        m.swapDisk (slot * PAGE_SIZE + (b - pa))
      else m.ram b }

/-- The loop of `evict` that drops the first TLB entry for `va`. -/
def tlbDrop (va : Nat) : (turns i : Nat) → Op Unit
  | 0, _ => pure ()
  | turns + 1, i => do
      let e ← tlbRead i
      if e.vpage = va then tlbWrite (.invalid i) i
      else tlbDrop va turns (i + 1)

def evict (vaddr : Nat) : Op Bool := do
  match ← Prog.attempt (onSwapBmp Bitmap.bitmapAlloc) with
  | .error _ => pure false
  | .ok swapIndex => do
      let m ← Prog.get
      let toSwap := m.findFifo
      let victim := m.coremap toSwap
      Prog.modify fun m => { m with
        swapHolder := Function.update m.swapHolder swapIndex
          { m.swapHolder swapIndex with
            va := victim.va
            npages := victim.npages
            addr := victim.addr } }
      onGblBmp (Bitmap.bitmapUnmark toSwap)
      Prog.assert ((← Prog.get).gblBmp.bitmapIsset toSwap = false) .evictIsset
      match victim.addr with
      | none => Prog.panic .nullAddrspace
      | some a => do
          writePte a victim.va (swapIndex * 2 + 1)
          setCoremap toSwap fun e => { e with
            addr := none
            va := 0
            npages := 0
            time := 0
            valid := false }
          lhdIo touch false vaddr (copyOut swapIndex)
          tlbDrop victim.va NUM_TLB 0
          pure true

def swapIn (vaddr swapIndex : Nat) : Op Bool := do
  match ← Prog.attempt (onGblBmp Bitmap.bitmapAlloc) with
  | .error _ => pure false
  | .ok index => do
      let m ← Prog.get
      Prog.assert (swapIndex < m.swapBmp.nbits) .swapHolderRange
      let holder := m.swapHolder swapIndex
      match holder.addr with
      | none => Prog.panic .nullAddrspace
      | some a => do
          writePte a holder.va (index * 2)
          setCoremap index fun e => { e with
            va := holder.va
            npages := holder.npages
            time := m.ref
            valid := true }
          Prog.modify fun m => { m with ref := (m.ref + 1) % 2 ^ 32 }
          onSwapBmp (Bitmap.bitmapUnmark swapIndex)
          lhdIo touch true vaddr (copyIn swapIndex)
          pure true

/-- The arguments of `swap_in` stand in the order of the source. -/
def swapHandler (index vaddr : Nat) : Op Bool := do
  let result ← evict touch vaddr
  if result = false then pure false
  else if index ≠ 0 then swapIn touch index vaddr
  else pure true

/-! The fault handler. -/

/-- The loop around `get_singlepage`: each turn that finds no frame evicts
a page. -/
def getFrame (faultaddress : Nat) : (turns : Nat) → Op (Nat × Nat)
  | 0 => Prog.panic .evictLoop
  | turns + 1 => do
      let (temp, index) ← getSinglepage
      if temp ≠ 0 then pure (temp, index)
      else do
        let fail ← swapHandler touch 0 faultaddress
        if fail = false then Prog.fail .ENOMEM
        else getFrame faultaddress turns

/-- The second-level table for `faultaddress`, made where there is none. -/
def makeTable (a : AsId) (faultaddress : Nat) : Op Unit := do
  let m ← Prog.get
  Prog.when (((m.addrspace a).firstpt (topten faultaddress)).isNone = true) (do
    let secondpt ← kmallocTable
    setAddrspace a fun as => Addrspace.writeFirstpt as (topten faultaddress) secondpt)

def mapPage (a : AsId) (faultaddress : Nat) : Op Unit := do
  let entry ← readPte a faultaddress
  if entry.tmod 2 = 1 then do
    let fail ← swapHandler touch (entry.tdiv 2).toNat faultaddress
    Prog.when (fail = false) (Prog.fail .ENOMEM)
  else Prog.when (entry.tdiv 2 = 0) (do
    let m ← Prog.get
    let (temp, index) ← getFrame touch faultaddress (m.swapBmp.nbits + 1)
    setCoremap index fun e => { e with npages := 1 }
    writePte a faultaddress (index * 2)
    ptInsert faultaddress temp)

end Paging

def writeBytes (pa : Nat) (bytes : List Byte) (m : Machine) : Machine :=
  { m with ram := fun b =>
      if pa ≤ b then bytes.getD (b - pa) (m.ram b) else m.ram b }

def pageRead (v : Vnode) (offset pa memsize filesize : Nat) : Op Unit := do
  let filesize := min filesize memsize
  let (bytes, result) := v offset filesize
  Prog.modify (writeBytes pa (bytes.take filesize))
  match result with
  | some code => Prog.fail code
  | none =>
      if bytes.length < filesize then Prog.fail .ENOEXEC
      else
        Prog.modify
          (writeBytes (pa + filesize) (List.replicate (memsize - filesize) 0))

/-- The loop that counts the pages from `vbase` up to `faultaddress`. -/
def pageCounter (faultaddress vbase : Nat) : (turns counter : Nat) → Nat
  | 0, counter => counter
  | turns + 1, counter =>
      if faultaddress - counter * PAGE_SIZE > vbase then
        pageCounter faultaddress vbase turns (counter + 1)
      else counter

/-- The loop that looks for a free slot.  It hands the last slot to nobody:
reaching it empties the buffer. -/
def tlbInsert (e : TlbEntry) : (turns i : Nat) → Op Unit
  | 0, _ => Prog.panic .vmFaultNoReturn
  | turns + 1, i => do
      let old ← tlbRead i
      if old.valid then tlbInsert e turns (i + 1)
      else if i = 63 then do
        tlbFlush
        tlbWrite e 0
      else tlbWrite e i

/-- The coremap index in a page-table entry. -/
def frameIndex (a : AsId) (va : Nat) : Op Nat := do
  let entry ← readPte a va
  let m ← Prog.get
  Prog.assert (0 ≤ entry.tdiv 2 ∧ entry.tdiv 2 < m.maxPageNum) .coremapRange
  pure (entry.tdiv 2).toNat

inductive Region where
  | text
  | data
  | other
  deriving DecidableEq, Repr

def region (as : Addrspace) (va : Nat) : Region :=
  let vtop1 := (as.asVbase1 + as.asNpages1 * PAGE_SIZE) % 2 ^ 32
  let vtop2 := (as.asVbase2 + as.asNpages2 * PAGE_SIZE) % 2 ^ 32
  if as.asVbase1 ≤ va ∧ va < vtop1 then .text
  else if as.asVbase2 ≤ va ∧ va < vtop2 then .data
  else .other

/-- The file offset and the length that a fault in the text or data region
passes to `page_read`. -/
def fileRange (as : Addrspace) (va : Nat) : Option (Nat × Nat) :=
  match region as va with
  | .text =>
      let counter := pageCounter va as.asVbase1 (va / PAGE_SIZE + 1) 0
      some ((as.offText + counter * PAGE_SIZE) % 2 ^ 32,
        (as.filesizeText + 2 ^ 32 - counter * PAGE_SIZE % 2 ^ 32) % 2 ^ 32)
  | .data =>
      let counter := pageCounter va as.asVbase2 (va / PAGE_SIZE + 1) 0
      if as.filesizeData ≠ 0 then
        some ((as.offData + counter * PAGE_SIZE) % 2 ^ 32,
          (as.filesizeData + 2 ^ 32 - counter * PAGE_SIZE % 2 ^ 32) % 2 ^ 32)
      else none
  | .other => none

def tlbFlags (as : Addrspace) (va : Nat) : Nat :=
  match region as va with
  | .text => TLBLO_VALID
  | .data => TLBLO_VALID ||| TLBLO_DIRTY
  | .other => TLBLO_VALID ||| TLBLO_DIRTY

/-- Read the page from the executable where the region says so.  The frame is
locked even when the read fails. -/
def loadPage (as : Addrspace) (a : AsId) (faultaddress : Nat) : Op Unit :=
  match fileRange as faultaddress with
  | none => pure ()
  | some (offset, filesize) => do
      let index ← frameIndex a faultaddress
      let m ← Prog.get
      setCoremap index fun e => { e with locked := true }
      pageRead as.asVnode offset (m.coremap index).pa PAGE_SIZE filesize

/-- The part of `vm_fault` after the page has a frame. -/
def refill (a : AsId) (faultaddress : Nat) : Op Unit := do
  let as := (← Prog.get).addrspace a
  loadPage as a faultaddress
  let index ← frameIndex a faultaddress
  let m ← Prog.get
  tlbInsert ⟨faultaddress ||| m.pid * 64 % 2 ^ 32,
    (m.coremap index).pa ||| tlbFlags as faultaddress⟩ NUM_TLB 0

inductive FaultType where
  | VM_FAULT_READ
  | VM_FAULT_WRITE
  | VM_FAULT_READONLY
  deriving DecidableEq, Repr

/-- The assertions that the address space was set up. -/
def checkSetup (as : Addrspace) : Op Unit := do
  Prog.assert (as.asNpages1 ≠ 0) .vmFaultSetup
  Prog.assert (as.asVbase2 ≠ 0) .vmFaultSetup
  Prog.assert (as.asNpages2 ≠ 0) .vmFaultSetup
  Prog.assert (pageFrame as.asVbase1 = as.asVbase1) .vmFaultSetup
  Prog.assert (pageFrame as.asPbase1 = as.asPbase1) .vmFaultSetup
  Prog.assert (pageFrame as.asVbase2 = as.asVbase2) .vmFaultSetup
  Prog.assert (pageFrame as.asPbase2 = as.asPbase2) .vmFaultSetup

/-- A fault on the page under the stack's base, or on any page above that,
moves the base there. -/
def growStack (a : AsId) (faultaddress : Nat) : Op Unit := do
  let as := (← Prog.get).addrspace a
  Prog.when ((faultaddress + PAGE_SIZE) % 2 ^ 32 ≥ as.asStackvbase)
    (setAddrspace a fun as => { as with asStackvbase := faultaddress })

def vmFaultWith (touch : Bool → Nat → Op Nat) (faulttype : FaultType)
    (address : Nat) : Op Unit := do
  let faultaddress := pageFrame address
  if faultaddress = 1073741824 then Prog.fail .EFAULT
  else if faulttype = .VM_FAULT_READONLY then Prog.panic .vmFaultReadonly
  else
    match (← Prog.get).tVmspace with
    | none => Prog.fail .EFAULT
    | some a =>
        if faultaddress = 0 then Prog.fail .EFAULT
        else do
          growStack a faultaddress
          checkSetup ((← Prog.get).addrspace a)
          makeTable a faultaddress
          mapPage touch a faultaddress
          refill a faultaddress

/-- An access of the kernel to `va`.  `mips_trap` ends the access where the
fault cannot be handled, and restarts it where it can; a write to a page that
is mapped read-only is a fault that `vm_fault` panics on. -/
def access (fault : Nat → Op Unit) : (turns : Nat) → (write : Bool) → Nat → Op Nat
  | 0, _, _ => Prog.panic .faultLoop
  | turns + 1, write, va => do
      match (← Prog.get).translate va with
      | some (pa, writable) => do
          Prog.assert (write = true → writable = true) .vmFaultReadonly
          pure pa
      | none => do
          match ← Prog.attempt (fault va) with
          | .error _ => Prog.panic .kernelFault
          | .ok _ => access fault turns write va

/-- The kernel reaches `vaddr` through the TLB and may fault inside the
handler; `depth` bounds how far the faults nest before the kernel stack is
used up. -/
def vmFault : (depth : Nat) → FaultType → Nat → Op Unit
  | 0, _, _ => Prog.panic .kernelStack
  | depth + 1, faulttype, address =>
      vmFaultWith (access (vmFault depth .VM_FAULT_READ) (depth + 1)) faulttype address

/-- A thread whose `pid` is 2 tests the words it did not read, `garbage`. -/
def asActivate (garbage : TlbEntry) : Op Unit := do
  let m ← Prog.get
  let e ← if m.pid ≠ 2 then tlbRead 0 else pure garbage
  Prog.when (e.elo ≠ 0 ∧ e.pid ≠ m.pid) tlbFlush

end Machine

end OS161.VM
