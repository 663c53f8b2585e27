import OS161.Sfs.Mount

namespace OS161.Sfs

open OS161.Data
open OS161.Kern

/-! The program `sbin/mksfs/mksfs.c`. -/

structure Mksfs where
  disk : Nat → Block
  bitbuf : BitWords 8

namespace Mksfs

/-- Why the program gives up. -/
inductive Errx where
  | volumeNameTooLong
  | filesystemTooLarge
  deriving DecidableEq, Repr

abbrev Op := Prog Errx Fault Mksfs

def diskwrite (data : Block) (block : Nat) : Op Unit :=
  Prog.modify fun s => { s with disk := Function.update s.disk block data }

def superBlock (volname : List Byte) (nblocks : Nat) : Block :=
  Record.ofBytes (((((Record.zeros : Block).set spMagic SFS_MAGIC).set spNblocksField
    nblocks).bytes).splice 8 volname)

def writesuper (volname : List Byte) (nblocks : Nat) : Op Unit := do
  Prog.when (32 ≤ volname.length) (Prog.fail .volumeNameTooLong)
  diskwrite (superBlock volname nblocks) 0

def rootInode : Block :=
  ((((Record.zeros : Block).set sfiSize 0).set sfiType 2).set sfiLinkcount 1)

def writerootdir : Op Unit := diskwrite rootInode 1

def doallocbit (bit : Nat) : Op Unit := do
  let s ← Prog.get
  Prog.assert (s.bitbuf (bit / 8) &&& 1#8 <<< (bit % 8) = 0) .doallocbitSet
  Prog.modify fun s => { s with bitbuf := s.bitbuf.orMask (bit / 8) (bit % 8) }

def writeMapBlock (i : Nat) : Op Unit := do
  let s ← Prog.get
  diskwrite (mapBlock s.bitbuf i) (2 + i)

def writebitmap (fsblocks : Nat) : Op Unit := do
  let nbits := sfsBitmapsize fsblocks
  let nblocks := sfsBitblocks fsblocks
  Prog.when (32 < nblocks) (Prog.fail .filesystemTooLarge)
  doallocbit 0
  doallocbit 1
  Prog.forFrom (fun i _ => doallocbit (2 + i)) nblocks 0 ()
  Prog.forFrom (fun i _ => doallocbit i) (nbits - fsblocks) fsblocks ()
  Prog.forFrom (fun i _ => writeMapBlock i) nblocks 0 ()

/-- `main` on a disk of `size` blocks. -/
def mksfs (volname : List Byte) (size : Nat) : Op Unit := do
  writesuper volname size
  writerootdir
  writebitmap size

/-- The program at its start. -/
def start (disk : Nat → Block) : Mksfs where
  disk := disk
  bitbuf _ := 0

end Mksfs

end OS161.Sfs
