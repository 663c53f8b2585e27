import Mathlib.Logic.Function.Basic
import OS161.Data.Prog

namespace OS161.Kheap

open OS161.Data

/-! The subpage allocator of `kern/lib/kheap.c`.  A pointer to a pageref is its
index in the table, memory is read and written by 4-byte words, and a free
block holds the address of the next one in its first word. -/

/-- The assertions and panics of the file. -/
inductive Stop where
  | inuseWordFull
  | freepagerefRange
  | freepagerefUnused
  | removeListsType
  | sizeTooLarge
  | corruptBlocktype
  | freelistOffset
  | nfreeZero
  | nextOutsidePage
  | nfreeLeft
  | linkToSelf
  | lastOffset
  | kfreeBlocktype
  | invalidAddr
  | tooManyFree
  | bigUnaligned
  | neverEnds
  deriving DecidableEq, Repr

def PAGE_SIZE : Nat := 4096

def NSIZES : Nat := 8

def sizes (blktype : Nat) : Nat :=
  [16, 32, 64, 128, 256, 512, 1024, 2048].getD blktype 0

def LARGEST_SUBPAGE_SIZE : Nat := 2048

def INVALID_OFFSET : Nat := 0xffff

def NPAGEREFS : Nat := 256

def INUSE_WORDS : Nat := 8

structure Pageref where
  nextSamesize : Option Nat
  nextAll : Option Nat
  pageaddrAndBlocktype : Nat
  freelistOffset : Nat
  nfree : Nat
  deriving DecidableEq, Repr

namespace Pageref

/-- `PR_PAGEADDR`. -/
def pageaddr (pr : Pageref) : Nat := pr.pageaddrAndBlocktype / 4096 * 4096

/-- `PR_BLOCKTYPE`. -/
def blocktype (pr : Pageref) : Nat := pr.pageaddrAndBlocktype % 4096

end Pageref

def mkpab (pa blk : Nat) : Nat := pa / 4096 * 4096 + blk % 4096

structure KHeap where
  mem : Nat → Nat
  pagerefs : Nat → Pageref
  pagerefsInuse : Nat → BitVec 32
  sizebases : Nat → Option Nat
  allbase : Option Nat
  /-- Runs of pages that the page allocator has handed out. -/
  kpages : List (Nat × Nat)
  /-- The calls of `free_kpages`, in order. -/
  released : List Nat

abbrev Op := Prog Empty Stop KHeap

namespace KHeap

def write (h : KHeap) (address value : Nat) : KHeap :=
  { h with mem := Function.update h.mem address value }

def setPageref (h : KHeap) (pr : Nat) (f : Pageref → Pageref) : KHeap :=
  { h with pagerefs := Function.update h.pagerefs pr (f (h.pagerefs pr)) }

end KHeap

/-- Two runs of pages have no page in common. -/
def Apart (one other : Nat × Nat) : Prop :=
  one.1 + one.2 * 4096 ≤ other.1 ∨ other.1 + other.2 * 4096 ≤ one.1

instance : Decidable (Apart one other) := inferInstanceAs (Decidable (_ ∨ _))

/-- What is assumed of `alloc_kpages`: it hands out the pages at `grant` if
they can be handed out, and `0` otherwise.  Kernel pages lie below `MIPS_KSEG1`. -/
def allocKpages (grant npages : Nat) : Op Nat := do
  let h ← Prog.get
  if grant ≠ 0 ∧ grant % 4096 = 0 ∧ grant + npages * 4096 ≤ 0xa0000000 ∧
      ∀ run ∈ h.kpages, Apart (grant, npages) run then
    Prog.modify fun h => { h with kpages := (grant, npages) :: h.kpages }
    pure grant
  else
    pure 0

def freeKpages (addr : Nat) : Op Unit :=
  Prog.modify fun h => { h with
    kpages := h.kpages.eraseP fun run => decide (run.1 = addr)
    released := h.released ++ [addr] }

/-- `for (k=1,j=0; k!=0; k<<=1,j++)` over one word of the bitmap. -/
def findClear (w : BitVec 32) : (turns : Nat) → (k : BitVec 32) → (j : Nat) →
    Option (BitVec 32 × Nat)
  | 0, _, _ => none
  | turns + 1, k, j =>
      if k = 0 then none
      else if w &&& k = 0 then some (k, j)
      else findClear w turns (k <<< 1) (j + 1)

def allocpagerefFrom : (words i : Nat) → Op (Option Nat)
  | 0, _ => pure none
  | words + 1, i => do
      let h ← Prog.get
      if h.pagerefsInuse i = 0xffffffff#32 then
        allocpagerefFrom words (i + 1)
      else
        match findClear (h.pagerefsInuse i) 33 1#32 0 with
        | none => Prog.panic .inuseWordFull
        | some (k, j) => do
            Prog.modify fun h => { h with
              pagerefsInuse :=
                Function.update h.pagerefsInuse i (h.pagerefsInuse i ||| k) }
            pure (some (i * 32 + j))

def allocpageref : Op (Option Nat) := allocpagerefFrom INUSE_WORDS 0

def freepageref (j : Nat) : Op Unit := do
  Prog.assert (j < NPAGEREFS) .freepagerefRange
  let i := j / 32
  let k := 1#32 <<< (j % 32)
  let h ← Prog.get
  Prog.assert (h.pagerefsInuse i &&& k ≠ 0) .freepagerefUnused
  Prog.modify fun h => { h with
    pagerefsInuse := Function.update h.pagerefsInuse i (h.pagerefsInuse i &&& ~~~k) }

/-- The lists a pageref can be on. -/
inductive Chain where
  | samesize (blktype : Nat)
  | all
  deriving DecidableEq, Repr

/-- Where a link of a list is stored. -/
inductive Slot where
  | base
  | link (pr : Nat)
  deriving DecidableEq, Repr

namespace KHeap

def base (h : KHeap) : Chain → Option Nat
  | .samesize blktype => h.sizebases blktype
  | .all => h.allbase

def next (h : KHeap) : Chain → Nat → Option Nat
  | .samesize _, pr => (h.pagerefs pr).nextSamesize
  | .all, pr => (h.pagerefs pr).nextAll

def setBase (h : KHeap) (head : Option Nat) : Chain → KHeap
  | .samesize blktype =>
      { h with sizebases := Function.update h.sizebases blktype head }
  | .all => { h with allbase := head }

def setNext (h : KHeap) (pr : Nat) (after : Option Nat) : Chain → KHeap
  | .samesize _ => h.setPageref pr fun r => { r with nextSamesize := after }
  | .all => h.setPageref pr fun r => { r with nextAll := after }

def slot (h : KHeap) (chain : Chain) : Slot → Option Nat
  | .base => h.base chain
  | .link pr => h.next chain pr

def setSlot (h : KHeap) (chain : Chain) (after : Option Nat) : Slot → KHeap
  | .base => h.setBase after chain
  | .link pr => h.setNext pr after chain

end KHeap

/-- One of the two loops of `remove_lists`.  A list has at most `NPAGEREFS`
members. -/
def unlink (chain : Chain) (pr : Nat) : (turns : Nat) → (guy : Slot) → Op Unit
  | 0, _ => Prog.panic .neverEnds
  | turns + 1, guy => do
      let h ← Prog.get
      match h.slot chain guy with
      | none => pure ()
      | some found =>
          if found = pr then
            Prog.modify fun h => h.setSlot chain (h.next chain pr) guy
          else
            unlink chain pr turns (.link found)

def removeLists (pr blktype : Nat) : Op Unit := do
  Prog.assert (blktype < NSIZES) .removeListsType
  unlink (.samesize blktype) pr (NPAGEREFS + 1) .base
  unlink .all pr (NPAGEREFS + 1) .base

def blocktypeFrom (sz : Nat) : (turns i : Nat) → Op Nat
  | 0, _ => Prog.panic .sizeTooLarge
  | turns + 1, i => if sz ≤ sizes i then pure i else blocktypeFrom sz turns (i + 1)

def blocktype (sz : Nat) : Op Nat := blocktypeFrom sz NSIZES 0

/-- The block at the label `doalloc`. -/
def doalloc (pr : Nat) : Op Nat := do
  let h ← Prog.get
  Prog.assert ((h.pagerefs pr).freelistOffset < PAGE_SIZE) .freelistOffset
  let prpage := (h.pagerefs pr).pageaddr
  let fla := prpage + (h.pagerefs pr).freelistOffset
  let fl := h.mem fla
  Prog.modify fun h => h.setPageref pr fun r => { r with nfree := r.nfree - 1 }
  let h ← Prog.get
  if fl ≠ 0 then
    Prog.assert ((h.pagerefs pr).nfree > 0) .nfreeZero
    Prog.assert ((fl + 2 ^ 32 - prpage) % 2 ^ 32 < PAGE_SIZE) .nextOutsidePage
    Prog.modify fun h => h.setPageref pr fun r =>
      { r with freelistOffset := (fl + 2 ^ 32 - prpage) % 2 ^ 32 % 2 ^ 16 }
    pure fla
  else
    Prog.assert ((h.pagerefs pr).nfree = 0) .nfreeLeft
    Prog.modify fun h => h.setPageref pr fun r =>
      { r with freelistOffset := INVALID_OFFSET }
    pure fla

/-- The first loop of `subpage_kmalloc`: a page of the right size with a free
block. -/
def findRoom (blktype : Nat) : (turns : Nat) → Option Nat → Op (Option Nat)
  | 0, _ => Prog.panic .neverEnds
  | _ + 1, none => pure none
  | turns + 1, some pr => do
      let h ← Prog.get
      Prog.assert ((h.pagerefs pr).blocktype = blktype) .corruptBlocktype
      if (h.pagerefs pr).nfree > 0 then
        pure (some pr)
      else
        findRoom blktype turns (h.pagerefs pr).nextSamesize

/-- Thread the free list of a fresh page through its blocks. -/
def threadBlocks (fla sz nfree : Nat) : Op Nat := do
  Prog.modify fun h => h.write fla 0
  Prog.forFrom (fun i _ => do
    Prog.modify fun h => h.write (fla + i * sz) (fla + (i - 1) * sz)
    Prog.assert (fla + i * sz ≠ fla + (i - 1) * sz) .linkToSelf
    pure (fla + i * sz)) (nfree - 1) 1 fla

/-- The middle of `subpage_kmalloc`: make a new page of blocks. -/
def newPage (grant blktype : Nat) : Op (Option Nat) := do
  match ← allocpageref with
  | none => pure none
  | some pr => do
      let prpage ← allocKpages grant 1
      if prpage = 0 then
        freepageref pr
        pure none
      else
        let nfree := PAGE_SIZE / sizes blktype
        Prog.modify fun h => h.setPageref pr fun r => { r with
          pageaddrAndBlocktype := mkpab prpage blktype
          nfree := nfree }
        let fla ← threadBlocks prpage (sizes blktype) nfree
        Prog.modify fun h => h.setPageref pr fun r =>
          { r with freelistOffset := (fla - prpage) % 2 ^ 16 }
        let h ← Prog.get
        Prog.assert
          ((h.pagerefs pr).freelistOffset = (nfree - 1) * sizes blktype) .lastOffset
        Prog.modify fun h =>
          h.setNext pr (h.base (.samesize blktype)) (.samesize blktype)
        Prog.modify fun h => h.setBase (some pr) (.samesize blktype)
        Prog.modify fun h => h.setNext pr (h.base .all) .all
        Prog.modify fun h => h.setBase (some pr) .all
        pure (some pr)

/-- The pointer handed out; `0` is `NULL`. -/
def subpageKmalloc (grant sz : Nat) : Op Nat := do
  let blktype ← blocktype sz
  let h ← Prog.get
  match ← findRoom blktype (NPAGEREFS + 1) (h.base (.samesize blktype)) with
  | some pr => doalloc pr
  | none => do
      match ← newPage grant blktype with
      | none => pure 0
      | some pr => doalloc pr

/-- `fill_deadbeef`. -/
def fillDeadbeef (h : KHeap) (ptr : Nat) : (words : Nat) → KHeap
  | 0 => h
  | words + 1 => (fillDeadbeef h ptr words).write (ptr + 4 * words) 0xdeadbeef

/-- The first loop of `subpage_kfree`: the page that holds an address. -/
def findPage (ptraddr : Nat) : (turns : Nat) → Option Nat → Op (Option Nat)
  | 0, _ => Prog.panic .neverEnds
  | _ + 1, none => pure none
  | turns + 1, some pr => do
      let h ← Prog.get
      let prpage := (h.pagerefs pr).pageaddr
      Prog.assert ((h.pagerefs pr).blocktype < NSIZES) .kfreeBlocktype
      if prpage ≤ ptraddr ∧ ptraddr < prpage + PAGE_SIZE then
        pure (some pr)
      else
        findPage ptraddr turns (h.pagerefs pr).nextAll

/-- The end of `subpage_kfree` for a page that is wholly free. -/
def releasePage (pr blktype prpage : Nat) : Op Unit := do
  removeLists pr blktype
  freeKpages prpage
  freepageref pr

/-- `true` is the return value `-1`: not a subpage allocation. -/
def subpageKfree (ptraddr : Nat) : Op Bool := do
  let h ← Prog.get
  match ← findPage ptraddr (NPAGEREFS + 1) (h.base .all) with
  | none => pure true
  | some pr => do
      let h ← Prog.get
      let prpage := (h.pagerefs pr).pageaddr
      let blktype := (h.pagerefs pr).blocktype
      let offset := ptraddr - prpage
      Prog.assert (¬(offset ≥ PAGE_SIZE ∨ offset % sizes blktype ≠ 0)) .invalidAddr
      Prog.modify fun h => fillDeadbeef h ptraddr (sizes blktype / 4)
      Prog.modify fun h => h.write (prpage + offset)
        (if (h.pagerefs pr).freelistOffset = INVALID_OFFSET then 0
          else prpage + (h.pagerefs pr).freelistOffset)
      Prog.modify fun h => h.setPageref pr fun r =>
        { r with freelistOffset := offset % 2 ^ 16, nfree := (r.nfree + 1) % 2 ^ 16 }
      let h ← Prog.get
      Prog.assert ((h.pagerefs pr).nfree ≤ PAGE_SIZE / sizes blktype) .tooManyFree
      Prog.when ((h.pagerefs pr).nfree = PAGE_SIZE / sizes blktype)
        (releasePage pr blktype prpage)
      pure false

def kmalloc (grant sz : Nat) : Op Nat :=
  if sz ≥ LARGEST_SUBPAGE_SIZE then
    allocKpages grant ((sz + PAGE_SIZE - 1) % 2 ^ 32 / PAGE_SIZE)
  else
    subpageKmalloc grant sz

def kfree (ptr : Nat) : Op Unit := do
  if ptr = 0 then
    pure ()
  else if ← subpageKfree ptr then
    Prog.assert (ptr % PAGE_SIZE = 0) .bigUnaligned
    freeKpages ptr
  else
    pure ()

end OS161.Kheap
