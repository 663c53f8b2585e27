import OS161.Lib.Bitmap
import OS161.Vfs.Uio

namespace OS161.Sfs

open OS161.Data
open OS161.Kern
open OS161.Lib
open OS161.Vfs

/-! The file system of `kern/fs/sfs`: its disk, its free map, the vnodes in
memory, and the transfers between a file and a uio. -/

abbrev Block := Record 512

/-! The records of `kern/include/kern/sfs.h`. -/

def SFS_MAGIC : Nat := 0xabadf001

def spMagic : Bytes.Field := ⟨0, 4⟩

def spNblocksField : Bytes.Field := ⟨4, 4⟩

def sfiSize : Bytes.Field := ⟨0, 4⟩

def sfiType : Bytes.Field := ⟨4, 2⟩

def sfiLinkcount : Bytes.Field := ⟨6, 2⟩

def sfiDirect (i : Nat) : Bytes.Field := ⟨8 + 4 * i, 4⟩

def sfiIndirect : Bytes.Field := ⟨68, 4⟩

/-- A number of an indirect block. -/
def idbufEntry (j : Nat) : Bytes.Field := ⟨4 * j, 4⟩

inductive VnodeOps where
  | sfsFileops
  | sfsDirops
  deriving DecidableEq, Repr

structure SfsVnode where
  vnOps : VnodeOps
  vnRefcount : Nat
  svI : Block
  svIno : Nat
  svDirty : Bool

structure SfsFs where
  /-- The sectors of `sfs_device`. -/
  disk : Nat → Block
  dBlocks : Nat
  /-- Whether the next transfers of the device fail; after these none does. -/
  mediaErrors : List Bool
  sfsSuper : Block
  sfsSuperdirty : Bool
  /-- Pointers to the vnodes in memory. -/
  sfsVnodes : List Nat
  vnode : Nat → SfsVnode
  sfsFreemap : Bitmap
  sfsFreemapdirty : Bool

def SfsFs.spNblocks (fs : SfsFs) : Nat := fs.sfsSuper.get spNblocksField

abbrev Op := Prog Errno Fault SfsFs

structure Io where
  fs : SfsFs
  uio : Uio

abbrev IoOp := Prog Errno Fault Io

def onFs (body : Op α) : IoOp α :=
  Prog.zoom Io.fs (fun io fs => { io with fs := fs }) body

def onUio (body : Uio.Op α) : IoOp α :=
  Prog.zoom Io.uio (fun io uio => { io with uio := uio }) body

/-! `kern/dev/lamebus/lhd.c` and `sfs_io.c`. -/

/-- The status the interrupt handler saves in `lh_result`. -/
def lhResult : Op Unit := fun fs =>
  match fs.mediaErrors with
  | [] => .ok () fs
  | false :: rest => .ok () { fs with mediaErrors := rest }
  | true :: rest => .error .EIOERR { fs with mediaErrors := rest }

def lhdSector (sector : Nat) : IoOp Unit := do
  let io ← Prog.get
  if io.uio.uioRw = .UIO_WRITE then do
    let lhBuf ← onUio (Uio.uiomove (List.replicate 512 0) 512)
    onFs lhResult
    onFs (Prog.modify fun fs =>
      { fs with disk := Function.update fs.disk sector (Record.ofList lhBuf) })
  else do
    onFs lhResult
    let _ ← onUio (Uio.uiomove (io.fs.disk sector).list 512)
    pure ()

def lhdIo : IoOp Unit := do
  let io ← Prog.get
  let sector := io.uio.uioOffset / 512
  let len := io.uio.uioResid / 512
  Prog.when (io.uio.uioOffset % 512 ≠ 0 ∨ io.uio.uioResid % 512 ≠ 0) (Prog.fail .EINVAL)
  Prog.when (io.fs.dBlocks < sector + len) (Prog.fail .EINVAL)
  Prog.forFrom (fun i _ => lhdSector (sector + i)) len 0 ()

/-- `sfs_rwblock` from its label `retry` on; `turns` counts the tries left. -/
def rwblockRetry : (turns : Nat) → IoOp Unit
  | 0 => Prog.fail .EIOERR
  | turns + 1 => do
      let result ← Prog.attempt lhdIo
      match result with
      | .ok _ => pure ()
      | .error .EINVAL => Prog.panic .rwblockEinval
      | .error .EIOERR => rwblockRetry turns
      | .error code => Prog.fail code

/-- The first try and the ten after it. -/
@[irreducible] def sfsRwblock : IoOp Unit := rwblockRetry 11

/-- Run a transfer on a uio of its own; the result is what went through it. -/
def withKuio (kuio : Uio) (body : IoOp Unit) : Op Uio := fun fs =>
  match body { fs := fs, uio := kuio } with
  | .ok _ io => .ok io.uio io.fs
  | .error code io => .error code io.fs
  | .panic reason => .panic reason

/-- `SFSUIO`. -/
def sfsuio (data : Block) (block : Nat) (rw : UioRw) : Uio :=
  Uio.mkKuio data.list (block * 512) rw

def sfsRblock (data : Block) (block : Nat) : Op Block := do
  let ku ← withKuio (sfsuio data block .UIO_READ) sfsRwblock
  pure (Record.ofList (ku.passed ++ ku.iov))

def sfsWblock (data : Block) (block : Nat) : Op Unit := do
  let _ ← withKuio (sfsuio data block .UIO_WRITE) sfsRwblock
  pure ()

/-! The start of `sfs_vnode.c`: inodes, space and block mapping. -/

def sfsClearblock (block : Nat) : Op Unit := sfsWblock Record.zeros block

/-- Change the vnode at `sv`. -/
def updateVnode (sv : Nat) (f : SfsVnode → SfsVnode) : Op Unit :=
  Prog.modify fun fs => { fs with vnode := Function.update fs.vnode sv (f (fs.vnode sv)) }

/-- Store a number in the inode in memory and mark it dirty. -/
def setInode (sv : Nat) (field : Bytes.Field) (x : Nat) : Op Unit :=
  updateVnode sv fun vn => { vn with svI := vn.svI.set field x, svDirty := true }

def sfsSyncInode (sv : Nat) : Op Unit := do
  let fs ← Prog.get
  Prog.when ((fs.vnode sv).svDirty = true) (do
    sfsWblock (fs.vnode sv).svI (fs.vnode sv).svIno
    updateVnode sv fun vn => { vn with svDirty := false })

def onFreemap (body : Bitmap.Op α) : Op α :=
  Prog.zoom SfsFs.sfsFreemap (fun fs freemap => { fs with sfsFreemap := freemap }) body

def sfsBalloc : Op Nat := do
  let diskblock ← onFreemap Bitmap.bitmapAlloc
  Prog.modify fun fs => { fs with sfsFreemapdirty := true }
  let fs ← Prog.get
  Prog.assert (diskblock < fs.spNblocks) .ballocInvalid
  sfsClearblock diskblock
  pure diskblock

def sfsBfree (diskblock : Nat) : Op Unit := do
  onFreemap (Bitmap.bitmapUnmark diskblock)
  Prog.modify fun fs => { fs with sfsFreemapdirty := true }

def sfsBused (diskblock : Nat) : Op Bool := do
  let fs ← Prog.get
  Prog.assert (diskblock < fs.spNblocks) .busedRange
  pure (fs.sfsFreemap.bitmapIsset diskblock)

/-- The end of both halves of `sfs_bmap`. -/
def handBack (block : Nat) : Op Nat :=
  if block ≠ 0 then do
    let used ← sfsBused block
    Prog.assert (used = true) .bmapMarkedFree
    pure block
  else pure block

def bmapDirect (sv fileblock : Nat) (doalloc : Bool) : Op Nat := do
  let block ← Prog.read fun fs => (fs.vnode sv).svI.get (sfiDirect fileblock)
  if block = 0 ∧ doalloc = true then do
    let block ← sfsBalloc
    setInode sv (sfiDirect fileblock) block
    handBack block
  else handBack block

/-- The block at `idoff` of the indirect block `idblock`, whose buffer is `idbuf`. -/
def bmapEntry (idblock : Nat) (idbuf : Block) (idoff : Nat) (doalloc : Bool) : Op Nat :=
  if idbuf.get (idbufEntry idoff) = 0 ∧ doalloc = true then do
    let block ← sfsBalloc
    sfsWblock (idbuf.set (idbufEntry idoff) block) idblock
    handBack block
  else handBack (idbuf.get (idbufEntry idoff))

def bmapIndirect (sv idoff : Nat) (doalloc : Bool) : Op Nat := do
  let idblock ← Prog.read fun fs => (fs.vnode sv).svI.get sfiIndirect
  if idblock = 0 ∧ doalloc = false then pure 0
  else if idblock = 0 then do
    let idblock ← sfsBalloc
    setInode sv sfiIndirect idblock
    bmapEntry idblock Record.zeros idoff doalloc
  else do
    let idbuf ← sfsRblock Record.zeros idblock
    bmapEntry idblock idbuf idoff doalloc

def sfsBmap (sv fileblock : Nat) (doalloc : Bool) : Op Nat :=
  if fileblock < 15 then bmapDirect sv fileblock doalloc
  else if (fileblock - 15) / 128 > 0 then Prog.fail .EINVAL
  else bmapIndirect sv ((fileblock - 15) % 128) doalloc

/-! Transfers between a file and a uio. -/

/-- Fill the I/O buffer from the block, or with zeros where none is mapped. -/
def partialioFill (diskblock : Nat) : IoOp Block := do
  let io ← Prog.get
  if diskblock = 0 then do
    Prog.assert (io.uio.uioRw = .UIO_READ) .partialioHole
    pure Record.zeros
  else onFs (sfsRblock Record.zeros diskblock)

def sfsPartialio (sv skipstart len : Nat) : IoOp Unit := do
  let io ← Prog.get
  Prog.assert (skipstart + len ≤ 512) .partialioSpan
  let diskblock ← onFs
    (sfsBmap sv (io.uio.uioOffset / 512) (decide (io.uio.uioRw = .UIO_WRITE)))
  let iobuf ← partialioFill diskblock
  let moved ← onUio (Uio.uiomove (iobuf.bytes.slice skipstart len) len)
  Prog.when (io.uio.uioRw = .UIO_WRITE)
    (onFs (sfsWblock (Record.ofBytes (iobuf.bytes.splice skipstart moved)) diskblock))

/-- Put another offset and residue in the uio. -/
def setUio (uioOffset uioResid : Nat) : IoOp Unit :=
  Prog.modify fun io =>
    { io with uio := { io.uio with uioOffset := uioOffset, uioResid := uioResid } }

/-- The transfer of `sfs_blockio` once the block is known. -/
def blockioDevice (diskblock : Nat) : IoOp Unit := do
  let io ← Prog.get
  Prog.assert (512 ≤ io.uio.uioResid) .blockioResid
  setUio (diskblock * 512) 512
  let result ← Prog.attempt sfsRwblock
  let done ← Prog.get
  setUio (done.uio.uioOffset - diskblock * 512 + io.uio.uioOffset)
    ((done.uio.uioResid + 2 ^ 32 - 512 + io.uio.uioResid) % 2 ^ 32)
  match result with
  | .ok _ => pure ()
  | .error code => Prog.fail code

def sfsBlockio (sv : Nat) : IoOp Unit := do
  let io ← Prog.get
  let diskblock ← onFs
    (sfsBmap sv (io.uio.uioOffset / 512) (decide (io.uio.uioRw = .UIO_WRITE)))
  if diskblock = 0 then do
    Prog.assert (io.uio.uioRw = .UIO_READ) .blockioHole
    onUio (Uio.uiomovezeros 512)
  else blockioDevice diskblock

/-- The partial block at the end of `sfs_io`. -/
def sfsIoTail (sv : Nat) : IoOp Unit := do
  let io ← Prog.get
  Prog.assert (io.uio.uioResid < 512) .sfsIoTail
  Prog.when (0 < io.uio.uioResid) (sfsPartialio sv 0 io.uio.uioResid)

def sfsIoBlocks (sv : Nat) : IoOp Unit := do
  let io ← Prog.get
  Prog.when (io.uio.uioResid ≠ 0) (do
    Prog.assert (io.uio.uioOffset % 512 = 0) .sfsIoAligned
    Prog.forFrom (fun _ _ => sfsBlockio sv) (io.uio.uioResid / 512) 0 ()
    sfsIoTail sv)

/-- The transfers of `sfs_io` before its label `out`. -/
def sfsIoBody (sv : Nat) : IoOp Unit := do
  let io ← Prog.get
  let blkoff := io.uio.uioOffset % 512
  Prog.when (blkoff ≠ 0) (sfsPartialio sv blkoff (min (512 - blkoff) io.uio.uioResid))
  sfsIoBlocks sv

/-- A `u_int32_t` taken as an `off_t`. -/
def offT (x : Nat) : Int :=
  if x % 2 ^ 32 < 2 ^ 31 then ((x % 2 ^ 32 : Nat) : Int)
  else ((x % 2 ^ 32 : Nat) : Int) - 2 ^ 32

/-- `sfs_io` from its label `out` on. -/
def sfsIoOut (sv extraresid : Nat) (result : Except Errno Unit) : IoOp Unit := do
  let io ← Prog.get
  Prog.when (io.uio.uioRw = .UIO_WRITE ∧
      offT ((io.fs.vnode sv).svI.get sfiSize) < io.uio.uioOffset)
    (onFs (setInode sv sfiSize io.uio.uioOffset))
  setUio io.uio.uioOffset ((io.uio.uioResid + extraresid) % 2 ^ 32)
  match result with
  | .ok _ => pure ()
  | .error code => Prog.fail code

def sfsIo (sv : Nat) : IoOp Unit := do
  let io ← Prog.get
  let size := offT ((io.fs.vnode sv).svI.get sfiSize)
  let endpos := offT (io.uio.uioOffset + io.uio.uioResid)
  if io.uio.uioRw = .UIO_READ ∧ size ≤ io.uio.uioOffset then pure ()
  else if io.uio.uioRw = .UIO_READ ∧ size < endpos then do
    let extraresid := (endpos - size).toNat
    Prog.assert (extraresid < io.uio.uioResid) .sfsIoExtra
    setUio io.uio.uioOffset (io.uio.uioResid - extraresid)
    let result ← Prog.attempt (sfsIoBody sv)
    sfsIoOut sv extraresid result
  else do
    let result ← Prog.attempt (sfsIoBody sv)
    sfsIoOut sv 0 result

end OS161.Sfs
