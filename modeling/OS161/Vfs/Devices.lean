import OS161.Data.Bytes
import OS161.Data.Prog
import OS161.Kern.Base

namespace OS161.Vfs

open OS161.Data
open OS161.Kern

/-! The table of named devices of `kern/fs/vfs/vfslist.c`. -/

/-- A pointer to a `struct vnode`. -/
abbrev VnodeId := Nat

/-- The characters of a C string. -/
abbrev CString := List Byte

structure Fs where
  fsData : Nat
  /-- What `FSOP_GETVOLNAME` answers. -/
  fsVolname : Option CString
  deriving DecidableEq, Repr

structure Knowndev where
  kdName : CString
  kdRawname : Option CString
  kdDevice : Option Nat
  kdVnode : VnodeId
  kdFs : Option Fs
  deriving DecidableEq, Repr

abbrev Knowndevs := List Knowndev

abbrev DevOp := Prog Errno Fault Knowndevs

/-! `vfs_getroot`. -/

/-- What the table says about a name, before a reference is taken. -/
inductive Answer where
  | root (fs : Fs)
  | device (vnode : VnodeId)
  | fails (code : Errno)
  | stops (reason : Fault)
  deriving DecidableEq, Repr

namespace Knowndev

/-- The tests of one turn that come after those for the file system. -/
def deviceAnswer (kd : Knowndev) (devname : CString) : Option Answer :=
  if kd.kdName = devname then
    if kd.kdFs ≠ none then some (.stops .getrootFs)
    else if kd.kdRawname ≠ none then some (.stops .getrootRawname)
    else if kd.kdDevice = none then some (.stops .getrootDevice)
    else some (.device kd.kdVnode)
  else if kd.kdRawname = some devname then
    if kd.kdDevice = none then some (.stops .getrootDevice)
    else some (.device kd.kdVnode)
  else none

/-- One turn of the loop; `none` goes on to the next entry. -/
def answer (kd : Knowndev) (devname : CString) : Option Answer :=
  match kd.kdFs with
  | some fs =>
      if kd.kdName = devname ∨ fs.fsVolname = some devname then some (.root fs)
      else kd.deviceAnswer devname
  | none =>
      if kd.kdRawname ≠ none ∧ kd.kdName = devname then some (.fails Errno.ENXIO)
      else kd.deviceAnswer devname

end Knowndev

def getrootAnswer (knowndevs : Knowndevs) (devname : CString) : Answer :=
  (knowndevs.findSome? fun kd => kd.answer devname).getD (.fails .ENODEV)

/-! Adding devices. -/

/-- `name` followed by `raw`. -/
def mkrawname (name : CString) : CString := name ++ [114, 97, 119]

/-- Two strings that are not `NULL` and the same. -/
def samestring (a b : Option CString) : Bool :=
  match a, b with
  | some a, some b => a = b
  | _, _ => false

def samestring3 (a b c d : Option CString) : Bool :=
  samestring a b || samestring a c || samestring a d

/-- The volume name of the file system on an entry. -/
def Knowndev.volname (kd : Knowndev) : Option CString := kd.kdFs.bind Fs.fsVolname

def badnames (knowndevs : Knowndevs) (n1 n2 n3 : Option CString) : Bool :=
  knowndevs.any fun kd =>
    samestring3 kd.volname n1 n2 n3 || samestring3 kd.kdRawname n1 n2 n3 ||
      samestring3 (some kd.kdName) n1 n2 n3

/-- What the allocations of one `vfs_doadd` come to. -/
structure AddMemory where
  /-- The vnode, when every `kmalloc` before `array_add` finds memory. -/
  kmalloc : Option VnodeId
  arrayAdd : Bool
  deriving DecidableEq, Repr

def vfsDoadd (dname : CString) (mountable : Bool) (dev : Option Nat) (fs : Option Fs)
    (mem : AddMemory) : DevOp Unit :=
  let rawname := if mountable then some (mkrawname dname) else none
  match mem.kmalloc with
  | none => Prog.fail .ENOMEM
  | some vnode => do
      let knowndevs ← Prog.get
      if badnames knowndevs (some dname) rawname (fs.bind Fs.fsVolname) then Prog.fail .EEXIST
      else if mem.arrayAdd = false then Prog.fail .ENOMEM
      else Prog.modify fun knowndevs => knowndevs ++
        [{ kdName := dname, kdRawname := rawname, kdDevice := dev, kdVnode := vnode, kdFs := fs }]

def vfsAdddev (devname : CString) (dev : Nat) (mountable : Bool) (mem : AddMemory) :
    DevOp Unit :=
  vfsDoadd devname mountable (some dev) none mem

def vfsAddfs (devname : CString) (fs : Fs) (mem : AddMemory) : DevOp Unit :=
  vfsDoadd devname false none (some fs) mem

/-! Mounting. -/

/-- The place of the mountable device of that name. -/
def findmount (knowndevs : Knowndevs) (devname : CString) : Option Nat :=
  knowndevs.findIdx? fun dev => dev.kdRawname.isSome && decide (devname = dev.kdName)

/-- Put another file system on the entry at `place`. -/
def setFs (place : Nat) (fs : Option Fs) : DevOp Unit :=
  Prog.modify fun knowndevs => knowndevs.modify place fun kd => { kd with kdFs := fs }

/-- The entry that `findmount` hands to its caller. -/
def mountPoint (devname : CString) : DevOp (Nat × Knowndev) := do
  let knowndevs ← Prog.get
  match findmount knowndevs devname with
  | none => Prog.fail .ENODEV
  | some place =>
      match knowndevs[place]? with
      | none => Prog.panic .arrayGetguy
      | some kd => pure (place, kd)

def vfsMount (devname : CString) (mountfunc : Nat → Except Errno Fs) : DevOp Unit := do
  let (place, kd) ← mountPoint devname
  match kd.kdFs, kd.kdDevice with
  | some _, _ => Prog.fail .EBUSY
  | none, none => Prog.panic .mountDevice
  | none, some dev =>
      match mountfunc dev with
      | .error code => Prog.fail code
      | .ok fs => setFs place (some fs)

/-- `sync` and `unmount` are the results of `FSOP_SYNC` and `FSOP_UNMOUNT`. -/
def vfsUnmount (devname : CString) (sync unmount : Except Errno Unit) : DevOp Unit := do
  let (place, kd) ← mountPoint devname
  match kd.kdFs, kd.kdDevice with
  | none, _ => Prog.fail .EINVAL
  | some _, none => Prog.panic .unmountDevice
  | some _, some _ =>
      match sync, unmount with
      | .error code, _ => Prog.fail code
      | .ok _, .error code => Prog.fail code
      | .ok _, .ok _ => setFs place none

end OS161.Vfs
