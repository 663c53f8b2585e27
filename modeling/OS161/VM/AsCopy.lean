import OS161.VM.Kpages

namespace OS161.VM.Machine

open OS161.Data
open OS161.Kern
open OS161.Lib

/-! Making an address space, loading it, and copying one for `fork`. -/

def USERSTACK : Nat := 0x80000000

/-- What the allocations of one `as_create` come to: where the structure lies,
whether the allocator took a page for it, and what the words left in the new
first-level table point to. -/
structure AsMemory where
  self : Option AsId
  newPage : Bool
  firstpt : Nat → Option (Nat → Int)
  unset : Unset

/-- `as_vnode`, the sizes and the offsets are set by the caller before they are
read. -/
def asCreate (mem : AsMemory) : Op AsId := do
  Prog.when (mem.newPage = true) (do
    let page ← allocKpages 1 mem.unset
    Prog.when (page = 0) (Prog.fail .ENOMEM))
  match mem.self with
  | none => Prog.fail .ENOMEM
  | some a => do
      let firstpt ← allocKpages 1 mem.unset
      Prog.when (firstpt = 0) (Prog.fail .ENOMEM)
      setAddrspace a fun as => { as with
        firstpt := mem.firstpt
        asStackvbase := USERSTACK
        heaptop := 0
        heapbottom := 0
        asVbase1 := 0
        asNpages1 := 0
        asVbase2 := 0
        asNpages2 := 0
        asPbase1 := 0
        asPbase2 := 0 }
      pure a

/-! `as_prepare_load`. -/

/-- A region as `as_prepare_load` sees it; `reads` tells whether its pages are
read from the file at all. -/
structure LoadRegion where
  vbase : Nat
  npages : Nat
  vnode : Vnode
  offset : Nat
  filesize : Nat
  reads : Bool
  setPbase : Nat → Addrspace → Addrspace

def textRegion (as : Addrspace) : LoadRegion where
  vbase := as.asVbase1
  npages := as.asNpages1
  vnode := as.asVnode
  offset := as.offText
  filesize := as.filesizeText
  reads := true
  setPbase pa as := { as with asPbase1 := pa }

def dataRegion (as : Addrspace) : LoadRegion where
  vbase := as.asVbase2
  npages := as.asNpages2
  vnode := as.asVnode
  offset := as.offData
  filesize := as.filesizeData
  reads := as.filesizeData ≠ 0
  setPbase pa as := { as with asPbase2 := pa }

/-- `firstpt[top][j] = entry`. -/
def writeTable (a : AsId) (top j : Nat) (entry : Int) : Op Unit := do
  match ((← Prog.get).addrspace a).firstpt top with
  | none => Prog.panic .nullTable
  | some table => do
      Prog.assert (j < 1024) .tableRange
      setAddrspace a fun as => Addrspace.writeFirstpt as top (Function.update table j entry)

/-- The offset and the length that page `i` of the region passes to `page_read`. -/
def LoadRegion.pageRange (r : LoadRegion) (i : Nat) : Nat × Nat :=
  let va := (r.vbase + i * PAGE_SIZE) % 2 ^ 32
  let counter := pageCounter va r.vbase (va / PAGE_SIZE + 1) 0
  ((r.offset + counter * PAGE_SIZE) % 2 ^ 32,
    (r.filesize + 2 ^ 32 - counter * PAGE_SIZE % 2 ^ 32) % 2 ^ 32)

/-- One turn of the loop over the pages of a region.  Where `get_singlepage` fails
it leaves `index` as the turn before left it. -/
def loadRegionPage (a : AsId) (r : LoadRegion) (i index : Nat) : Op Nat := do
  let (temp, found) ← getSinglepage
  let index := if temp = 0 ∧ found = 0 then index else found
  Prog.when (i = 0) (do
    let m ← Prog.get
    Prog.assert (index < m.maxPageNum) .coremapRange
    setCoremap index fun e => { e with npages := r.npages })
  writeTable a (topten r.vbase) (btmten r.vbase + i) (index * 2)
  Prog.when (temp = 0) (Prog.fail .ENOMEM)
  ptInsert ((r.vbase + i * PAGE_SIZE) % 2 ^ 32) temp
  Prog.when (i = 0) (setAddrspace a (r.setPbase temp))
  Prog.when (r.reads = true)
    (pageRead r.vnode (r.pageRange i).1 temp PAGE_SIZE (r.pageRange i).2)
  pure index

/-- A second-level table for the region, in place of the one that may be there,
and the pages of the region in it. -/
def loadRegion (a : AsId) (r : LoadRegion) (index : Nat) : Op Nat := do
  let secondpt ← kmallocTable
  setAddrspace a fun as => Addrspace.writeFirstpt as (topten r.vbase) secondpt
  Prog.forFrom (loadRegionPage a r) r.npages 0 index

def asPrepareLoad (a : AsId) (unset : Unset) : Op Unit := do
  let as := (← Prog.get).addrspace a
  let index ← loadRegion a (textRegion as) unset.index
  let _ ← loadRegion a (dataRegion as) index
  pure ()

/-! `as_copy`. -/

/-- The fields that `as_copy` hands over. -/
def handOver (as : Addrspace) (copy : Addrspace) : Addrspace :=
  { copy with
    heaptop := as.heaptop
    heapbottom := as.heapbottom
    asStackvbase := as.asStackvbase
    asVbase1 := as.asVbase1
    asNpages1 := as.asNpages1
    asVbase2 := as.asVbase2
    asNpages2 := as.asNpages2
    asVnode := as.asVnode
    offData := as.offData
    offText := as.offText
    filesizeText := as.filesizeText
    filesizeData := as.filesizeData }

end OS161.VM.Machine
