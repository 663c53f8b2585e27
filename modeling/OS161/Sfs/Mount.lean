import OS161.Sfs.Vnode

namespace OS161.Sfs

open OS161.Data
open OS161.Kern
open OS161.Lib
open OS161.Vfs

/-! `kern/fs/sfs/sfs_fs.c`: the free map on disk, sync, unmount and mount. -/

/-- `SFS_BITMAPSIZE`. -/
def sfsBitmapsize (nblocks : Nat) : Nat := (nblocks + 4095) % 2 ^ 32 / 4096 * 4096

/-- `SFS_BITBLOCKS`. -/
def sfsBitblocks (nblocks : Nat) : Nat := sfsBitmapsize nblocks / 4096

/-- The bytes of the bitmap that block `j` of the map holds. -/
def mapBlock (v : BitWords 8) (j : Nat) : Block := Record.ofBytes fun k => v (j * 512 + k)

/-- Read block `j` of the map into the bitmap. -/
def putMapBlock (v : BitWords 8) (j : Nat) (data : Block) : BitWords 8 := fun ix =>
  if j * 512 ≤ ix ∧ ix < j * 512 + 512 then data.bytes (ix - j * 512) else v ix

def mapioBlock (rw : UioRw) (j : Nat) : Op Unit := do
  let fs ← Prog.get
  match rw with
  | .UIO_READ => do
      let data ← sfsRblock (mapBlock fs.sfsFreemap.v j) (2 + j)
      Prog.modify fun fs => { fs with
        sfsFreemap := { fs.sfsFreemap with v := putMapBlock fs.sfsFreemap.v j data } }
  | .UIO_WRITE => sfsWblock (mapBlock fs.sfsFreemap.v j) (2 + j)

def sfsMapio (rw : UioRw) : Op Unit := do
  let fs ← Prog.get
  Prog.forFrom (fun j _ => mapioBlock rw j) (sfsBitblocks fs.spNblocks) 0 ()

/-- The results of `VOP_FSYNC` are not looked at. -/
def syncVnodes : List Nat → Op Unit
  | [] => pure ()
  | sv :: rest => do
      let _ ← Prog.attempt (sfsFsync sv)
      syncVnodes rest

def syncFreemap : Op Unit := do
  let fs ← Prog.get
  Prog.when (fs.sfsFreemapdirty = true) (do
    sfsMapio .UIO_WRITE
    Prog.modify fun fs => { fs with sfsFreemapdirty := false })

def syncSuper : Op Unit := do
  let fs ← Prog.get
  Prog.when (fs.sfsSuperdirty = true) (do
    sfsWblock fs.sfsSuper 0
    Prog.modify fun fs => { fs with sfsSuperdirty := false })

def sfsSync : Op Unit := do
  let fs ← Prog.get
  syncVnodes fs.sfsVnodes
  syncFreemap
  syncSuper

def sfsUnmount : Op Unit := do
  let fs ← Prog.get
  Prog.when (0 < fs.sfsVnodes.length) (Prog.fail .EBUSY)
  Prog.assert (fs.sfsSuperdirty = false) .unmountSuper
  Prog.assert (fs.sfsFreemapdirty = false) .unmountFreemap

/-- What the allocations of one `sfs_domount` come to. -/
structure MountMemory where
  kmalloc : Bool
  arrayCreate : Bool
  bitmapCreate : Bool
  deriving DecidableEq, Repr

/-- The volume name ends in its last byte if nowhere before. -/
def endVolname (super : Block) : Block := Record.ofBytes (super.bytes.splice 39 [0])

/-- Mount the disk of a new `struct sfs_fs`; `dBlocksize` is the sector size of its
device. -/
def sfsDomount (dBlocksize : Nat) (mem : MountMemory) : Op Unit := do
  Prog.when (dBlocksize ≠ 512) (Prog.fail Errno.ENXIO)
  Prog.when (mem.kmalloc = false) (Prog.fail .ENOMEM)
  Prog.when (mem.arrayCreate = false) (Prog.fail .ENOMEM)
  let fs ← Prog.get
  let super ← sfsRblock fs.sfsSuper 0
  Prog.when (super.get spMagic ≠ SFS_MAGIC) (Prog.fail .EINVAL)
  Prog.when (mem.bitmapCreate = false) (Prog.fail .ENOMEM)
  Prog.modify fun fs => { fs with
    sfsVnodes := []
    sfsSuper := endVolname super
    sfsFreemap := Bitmap.bitmapCreate (sfsBitmapsize ((endVolname super).get spNblocksField)) }
  sfsMapio .UIO_READ
  Prog.modify fun fs => { fs with sfsSuperdirty := false, sfsFreemapdirty := false }

end OS161.Sfs
