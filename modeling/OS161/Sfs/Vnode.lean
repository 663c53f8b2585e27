import OS161.Sfs.Fs

namespace OS161.Sfs

open OS161.Data
open OS161.Kern
open OS161.Lib
open OS161.Vfs

/-! The vnode operations of `sfs_vnode.c`: truncation, the directory, and the
table of vnodes in memory. -/

/-- `DIVROUNDUP(len, SFS_BLOCKSIZE)`, computed in `off_t` and kept in a `u_int32_t`. -/
@[irreducible] def blocksOf (len : Nat) : Nat := ((offT (len + 511)).tdiv 512 % 2 ^ 32).toNat

def truncateDirect (sv blocklen : Nat) (i : Nat) : Op Unit := do
  let block ← Prog.read fun fs => (fs.vnode sv).svI.get (sfiDirect i)
  Prog.when (blocklen ≤ i ∧ block ≠ 0) (do
    sfsBfree block
    setInode sv (sfiDirect i) 0)

/-- The variables of the loop over the indirect block. -/
structure IdScan where
  idbuf : Block
  hasnonzero : Bool
  iddirty : Bool

/-- Remember if the entry just looked at is nonzero. -/
def IdScan.note (scan : IdScan) (j : Nat) : IdScan :=
  if scan.idbuf.get (idbufEntry j) ≠ 0 then { scan with hasnonzero := true } else scan

def truncateEntry (blocklen : Nat) (j : Nat) (scan : IdScan) : Op IdScan :=
  if blocklen < 15 + j ∧ scan.idbuf.get (idbufEntry j) ≠ 0 then do
    sfsBfree (scan.idbuf.get (idbufEntry j))
    pure (IdScan.note { scan with
      idbuf := scan.idbuf.set (idbufEntry j) 0
      iddirty := true } j)
  else pure (scan.note j)

def truncateIndirect (sv blocklen : Nat) : Op Unit := do
  let idblock ← Prog.read fun fs => (fs.vnode sv).svI.get sfiIndirect
  Prog.when (blocklen < 142 ∧ idblock ≠ 0) (do
    let idbuf ← sfsRblock Record.zeros idblock
    let scan ← Prog.forFrom (truncateEntry blocklen) 128 0
      { idbuf := idbuf, hasnonzero := false, iddirty := false }
    if scan.hasnonzero = false then do
      sfsBfree idblock
      setInode sv sfiIndirect 0
    else Prog.when (scan.iddirty = true) (sfsWblock scan.idbuf idblock))

def sfsTruncate (sv len : Nat) : Op Unit := do
  Prog.forFrom (fun i _ => truncateDirect sv (blocksOf len) i) 15 0 ()
  truncateIndirect sv (blocksOf len)
  setInode sv sfiSize len

/-! The directory. -/

abbrev SfsDir := Record 64

def sfdIno : Bytes.Field := ⟨0, 4⟩

/-- A C string. -/
abbrev Name := { l : List Byte // (0 : Byte) ∉ l }

/-- The name in an entry, ended by a zero in its last byte if nowhere before. -/
def SfsDir.sfdName (sd : SfsDir) : List Byte :=
  ((sd.list.drop 4).set 59 0).takeWhile (· ≠ 0)

def sfsReaddir (sv slot : Nat) : Op SfsDir := do
  let ku ← withKuio (Uio.mkKuio (List.replicate 64 0) (slot * 64) .UIO_READ) (sfsIo sv)
  Prog.assert (ku.uioResid = 0) .readdirShort
  pure (Record.ofList (ku.passed ++ ku.iov))

def sfsWritedir (sv : Nat) (sd : SfsDir) (slot : Nat) : Op Unit := do
  let ku ← withKuio (Uio.mkKuio sd.list (slot * 64) .UIO_WRITE) (sfsIo sv)
  Prog.assert (ku.uioResid = 0) .writedirShort

def sfsDirNentries (sv : Nat) : Op Nat := do
  let fs ← Prog.get
  Prog.assert ((fs.vnode sv).svI.get sfiType = 2) .nentriesType
  Prog.assert ((fs.vnode sv).svI.get sfiSize % 64 = 0) .nentriesSize
  pure ((fs.vnode sv).svI.get sfiSize / 64)

/-- What `sfs_dir_findname` found: the slot and inode number of the name, and a
free slot.  Without the name the source returns `ENOENT`. -/
structure DirScan where
  found : Option (Nat × Nat)
  emptyslot : Option Nat
  deriving DecidableEq, Repr

def findnameSlot (sv : Nat) (name : Name) (i : Nat) (scan : DirScan) : Op DirScan := do
  let tsd ← sfsReaddir sv i
  if tsd.get sfdIno = 0 then pure { scan with emptyslot := some i }
  else if tsd.sfdName = name.val then do
    Prog.assert (scan.found = none) .findnameTwice
    pure { scan with found := some (i, tsd.get sfdIno) }
  else pure scan

def sfsDirFindname (sv : Nat) (name : Name) : Op DirScan := do
  let nentries ← sfsDirNentries sv
  Prog.forFrom (findnameSlot sv name) nentries 0 { found := none, emptyslot := none }

def makeSfsDir (ino : Nat) (name : List Byte) : SfsDir :=
  Record.ofBytes (((Record.zeros : SfsDir).set sfdIno ino).bytes.splice 4 name)

/-- The free slot found, or the one past the last entry. -/
def chooseSlot (sv : Nat) : Option Nat → Op Nat
  | some slot => pure slot
  | none => sfsDirNentries sv

def sfsDirLink (sv : Nat) (name : Name) (ino : Nat) : Op Nat := do
  let scan ← sfsDirFindname sv name
  Prog.when (scan.found.isSome = true) (Prog.fail .EEXIST)
  Prog.when (60 < name.val.length + 1) (Prog.fail .ENAMETOOLONG)
  let slot ← chooseSlot sv scan.emptyslot
  sfsWritedir sv (makeSfsDir ino name.val) slot
  pure slot

def sfsDirUnlink (sv slot : Nat) : Op Unit := sfsWritedir sv Record.zeros slot

/-! Loading and reclaiming vnodes. -/

/-- What the allocations of one `sfs_loadvnode` come to. -/
structure Memory where
  kmalloc : Option Nat
  lockCreate : Bool
  arrayAdd : Bool
  deriving DecidableEq, Repr

def vopIncref (sv : Nat) : Op Unit :=
  updateVnode sv fun vn => { vn with vnRefcount := vn.vnRefcount + 1 }

/-- The search of the vnode table. -/
def findLoaded (ino : Nat) : List Nat → Op (Option Nat)
  | [] => pure none
  | sv :: rest => do
      let fs ← Prog.get
      let used ← sfsBused (fs.vnode sv).svIno
      Prog.assert (used = true) .loadvnodeTableFree
      if (fs.vnode sv).svIno = ino then pure (some sv) else findLoaded ino rest

def chooseOps (type : Nat) : Op VnodeOps :=
  if type = 1 then pure .sfsFileops
  else if type = 2 then pure .sfsDirops
  else Prog.panic .loadvnodeType

def initVnode (sv ino : Nat) (svI : Block) (svDirty : Bool) (mem : Memory) : Op Nat := do
  let ops ← chooseOps (svI.get sfiType)
  Prog.when (mem.lockCreate = false) (Prog.fail .ENOMEM)
  updateVnode sv fun _ =>
    { vnOps := ops, vnRefcount := 1, svI := svI, svIno := ino, svDirty := svDirty }
  Prog.when (mem.arrayAdd = false) (Prog.fail .ENOMEM)
  Prog.modify fun fs => { fs with sfsVnodes := fs.sfsVnodes ++ [sv] }
  pure sv

def loadInode (sv ino forcetype : Nat) (mem : Memory) : Op Nat := do
  let used ← sfsBused ino
  Prog.assert (used = true) .loadvnodeFree
  let svI ← sfsRblock Record.zeros ino
  if forcetype ≠ 0 then do
    Prog.assert (svI.get sfiType = 0) .loadvnodeForceType
    initVnode sv ino (svI.set sfiType forcetype) true mem
  else initVnode sv ino svI false mem

/-- `sfs_loadvnode` after the search of the table. -/
def loadvnodeFound (ino forcetype : Nat) (mem : Memory) (found : Option Nat) : Op Nat :=
  match found, mem.kmalloc with
  | some sv, _ => do
      Prog.assert (forcetype = 0) .loadvnodeForced
      vopIncref sv
      pure sv
  | none, none => Prog.fail .ENOMEM
  | none, some sv => loadInode sv ino forcetype mem

def sfsLoadvnode (ino forcetype : Nat) (mem : Memory) : Op Nat := do
  let fs ← Prog.get
  let found ← findLoaded ino fs.sfsVnodes
  loadvnodeFound ino forcetype mem found

def vopTruncate (sv len : Nat) : Op Unit := do
  let fs ← Prog.get
  match (fs.vnode sv).vnOps with
  | .sfsFileops => sfsTruncate sv len
  | .sfsDirops => Prog.fail .EISDIR

/-- The end of `sfs_reclaim`: the inode block and the place in the table. -/
def discardVnode (sv : Nat) : Op Unit := do
  let fs ← Prog.get
  Prog.when ((fs.vnode sv).svI.get sfiLinkcount = 0) (sfsBfree (fs.vnode sv).svIno)
  Prog.assert (sv ∈ fs.sfsVnodes) .reclaimMissing
  Prog.modify fun fs => { fs with sfsVnodes := fs.sfsVnodes.erase sv }

def sfsReclaim (sv : Nat) : Op Unit := do
  let fs ← Prog.get
  if (fs.vnode sv).vnRefcount ≠ 1 then do
    Prog.assert (1 < (fs.vnode sv).vnRefcount) .reclaimRefcount
    updateVnode sv fun vn => { vn with vnRefcount := vn.vnRefcount - 1 }
    Prog.fail .EBUSY
  else do
    Prog.when ((fs.vnode sv).svI.get sfiLinkcount = 0) (vopTruncate sv 0)
    sfsSyncInode sv
    discardVnode sv

def vopDecref (sv : Nat) : Op Unit := do
  let fs ← Prog.get
  Prog.assert (0 < (fs.vnode sv).vnRefcount) .decrefZero
  if 1 < (fs.vnode sv).vnRefcount then
    updateVnode sv fun vn => { vn with vnRefcount := vn.vnRefcount - 1 }
  else do
    let _ ← Prog.attempt (sfsReclaim sv)
    pure ()

/-! Calls on the directory. -/

def sfsLookonce (sv : Nat) (name : Name) (mem : Memory) : Op (Nat × Nat) := do
  let scan ← sfsDirFindname sv name
  match scan.found with
  | none => Prog.fail .ENOENT
  | some (slot, ino) => do
      let victim ← sfsLoadvnode ino 0 mem
      let fs ← Prog.get
      Prog.assert ((fs.vnode victim).svI.get sfiLinkcount ≠ 0) .lookonceUnlinked
      pure (victim, slot)

def sfsMakeobj (type : Nat) (mem : Memory) : Op Nat := do
  let ino ← sfsBalloc
  sfsLoadvnode ino type mem

/-- `sfi_linkcount++`; the field keeps what fits in it. -/
def linkcountUp (sv : Nat) : Op Unit := do
  let fs ← Prog.get
  setInode sv sfiLinkcount ((fs.vnode sv).svI.get sfiLinkcount + 1)

def linkcountDown (sv : Nat) (fault : Fault) : Op Unit := do
  let fs ← Prog.get
  Prog.assert (0 < (fs.vnode sv).svI.get sfiLinkcount) fault
  setInode sv sfiLinkcount ((fs.vnode sv).svI.get sfiLinkcount - 1)

/-- Give back a reference and return the error code. -/
def puke (sv : Nat) (code : Errno) : Op α := do
  vopDecref sv
  Prog.fail code

def creatLink (sv : Nat) (name : Name) (newguy : Nat) : Op Nat := do
  let fs ← Prog.get
  let result ← Prog.attempt (sfsDirLink sv name (fs.vnode newguy).svIno)
  match result with
  | .error code => puke newguy code
  | .ok _ => do
      linkcountUp newguy
      pure newguy

def sfsCreat (sv : Nat) (name : Name) (excl : Bool) (mem : Memory) : Op Nat := do
  let scan ← sfsDirFindname sv name
  match scan.found with
  | some (_, ino) => do
      Prog.when (excl = true) (Prog.fail .EEXIST)
      sfsLoadvnode ino 0 mem
  | none => do
      let newguy ← sfsMakeobj 1 mem
      creatLink sv name newguy

def sfsLink (dir : Nat) (name : Name) (file : Nat) : Op Unit := do
  let fs ← Prog.get
  let _ ← sfsDirLink dir name (fs.vnode file).svIno
  linkcountUp file

def sfsRemove (dir : Nat) (name : Name) (mem : Memory) : Op Unit := do
  let (victim, slot) ← sfsLookonce dir name mem
  let result ← Prog.attempt (sfsDirUnlink dir slot)
  match result with
  | .error code => puke victim code
  | .ok _ => do
      linkcountDown victim .removeUnlinked
      vopDecref victim

/-- `sfs_rename` from its label `puke_harder` on. -/
def renameUndo (sv g1 slot2 : Nat) (code : Errno) : Op Unit := do
  let result2 ← Prog.attempt (sfsDirUnlink sv slot2)
  match result2 with
  | .error _ => Prog.panic .renameRecover
  | .ok _ => do
      updateVnode g1 fun vn =>
        { vn with svI := vn.svI.set sfiLinkcount (vn.svI.get sfiLinkcount + (2 ^ 16 - 1)) }
      puke g1 code

def renameUnlink (sv g1 slot1 slot2 : Nat) : Op Unit := do
  linkcountUp g1
  let result ← Prog.attempt (sfsDirUnlink sv slot1)
  match result with
  | .error code => renameUndo sv g1 slot2 code
  | .ok _ => do
      linkcountDown g1 .renameUnlinked
      vopDecref g1

def renameLink (sv : Nat) (n2 : Name) (g1 slot1 : Nat) : Op Unit := do
  let fs ← Prog.get
  Prog.assert ((fs.vnode g1).svI.get sfiType = 1) .renameType
  let result ← Prog.attempt (sfsDirLink sv n2 (fs.vnode g1).svIno)
  match result with
  | .error code => puke g1 code
  | .ok slot2 => renameUnlink sv g1 slot1 slot2

def sfsRename (d1 : Nat) (n1 : Name) (d2 : Nat) (n2 : Name) (mem : Memory) : Op Unit := do
  Prog.assert (d1 = d2) .renameDirs
  let fs ← Prog.get
  Prog.assert ((fs.vnode d1).svIno = 1) .renameRoot
  let (g1, slot1) ← sfsLookonce d1 n1 mem
  renameLink d1 n2 g1 slot1

def sfsLookup (sv : Nat) (path : Name) (mem : Memory) : Op Nat := do
  let fs ← Prog.get
  Prog.when ((fs.vnode sv).svI.get sfiType ≠ 2) (Prog.fail .ENOTDIR)
  let (final, _) ← sfsLookonce sv path mem
  pure final

def sfsGetroot (mem : Memory) : Op Nat := do
  let result ← Prog.attempt (sfsLoadvnode 1 0 mem)
  match result with
  | .ok sv => pure sv
  | .error _ => Prog.panic .getrootLoad

def sfsFsync (sv : Nat) : Op Unit := sfsSyncInode sv

def sfsRead (sv : Nat) : IoOp Unit := do
  let io ← Prog.get
  Prog.assert (io.uio.uioRw = .UIO_READ) .sfsReadRw
  sfsIo sv

def sfsWrite (sv : Nat) : IoOp Unit := do
  let io ← Prog.get
  Prog.assert (io.uio.uioRw = .UIO_WRITE) .sfsWriteRw
  sfsIo sv

/-! The two function tables: calls that only one of them has. -/

def dirOp (sv : Nat) (body : Op α) : Op α := do
  let fs ← Prog.get
  match (fs.vnode sv).vnOps with
  | .sfsFileops => Prog.fail .ENOTDIR
  | .sfsDirops => body

def fileOp (sv : Nat) (body : Op α) : Op α := do
  let fs ← Prog.get
  match (fs.vnode sv).vnOps with
  | .sfsFileops => body
  | .sfsDirops => Prog.fail .EISDIR

end OS161.Sfs
