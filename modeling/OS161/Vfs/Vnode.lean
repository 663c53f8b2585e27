import Mathlib.Logic.Function.Basic
import OS161.Vfs.Devices

namespace OS161.Vfs

open OS161.Data
open OS161.Kern

/-! The counts of `kern/fs/vfs/vnode.c` over the operations of the file systems. -/

structure VfsState (σ : Type) where
  vnRefcount : VnodeId → Nat
  vnOpencount : VnodeId → Nat
  vnFs : VnodeId → Option Fs
  /-- How many drops of a last reference left the vnode in place.  Nothing in the source
  keeps it and no function here reads it. -/
  kept : VnodeId → Nat
  knowndevs : Knowndevs
  bootfsVnode : Option VnodeId
  /-- The current directory of `curthread`. -/
  tCwd : Option VnodeId
  /-- What the file systems and devices keep for themselves. -/
  files : σ

variable {σ : Type}

abbrev Op (σ : Type) := Prog Errno Fault (VfsState σ)

/-- The functions of `struct vnode_ops` and `struct fs` that the VFS layer calls. -/
structure VnodeOps (σ : Type) where
  vopOpen : VnodeId → (flags : Nat) → Op σ Unit
  vopClose : VnodeId → Op σ Unit
  vopReclaim : VnodeId → Op σ Unit
  vopGettype : VnodeId → Op σ Nat
  vopTruncate : VnodeId → (len : Nat) → Op σ Unit
  vopCreat : VnodeId → CString → (excl : Bool) → Op σ VnodeId
  vopLink : VnodeId → CString → VnodeId → Op σ Unit
  vopRemove : VnodeId → CString → Op σ Unit
  vopRename : VnodeId → CString → VnodeId → CString → Op σ Unit
  vopLookup : VnodeId → CString → Op σ VnodeId
  vopLookparent : VnodeId → CString → Op σ (VnodeId × CString)
  fsopGetroot : Fs → Op σ VnodeId

/-- The part of `vnode_check` that reads the counts; `VOP_RECLAIM` goes without it. -/
def vnodeCheck (vn : VnodeId) : Op σ Unit := do
  let s ← Prog.get
  Prog.assert (0 < s.vnRefcount vn) .vnodeCheck

/-- Call an operation of the vnode. -/
def vop (vn : VnodeId) (body : Op σ α) : Op σ α := do
  vnodeCheck vn
  body

def setRefcount (vn : VnodeId) (n : Nat) : Op σ Unit :=
  Prog.modify fun s => { s with vnRefcount := Function.update s.vnRefcount vn n }

def setOpencount (vn : VnodeId) (n : Nat) : Op σ Unit :=
  Prog.modify fun s => { s with vnOpencount := Function.update s.vnOpencount vn n }

def vnodeIncref (vn : VnodeId) : Op σ Unit := do
  let s ← Prog.get
  setRefcount vn (s.vnRefcount vn + 1)

/-- Note whether the vnode is still there. -/
def noteKept (vn : VnodeId) : Op σ Unit :=
  Prog.modify fun s => { s with
    kept := Function.update s.kept vn (s.kept vn + s.vnRefcount vn) }

/-- A failed `VOP_RECLAIM` is a warning on the console. -/
def vnodeDecref (ops : VnodeOps σ) (vn : VnodeId) : Op σ Unit := do
  let s ← Prog.get
  Prog.assert (0 < s.vnRefcount vn) .decrefZero
  if 1 < s.vnRefcount vn then setRefcount vn (s.vnRefcount vn - 1)
  else do
    let _ ← Prog.attempt (ops.vopReclaim vn)
    noteKept vn

def vnodeIncopen (vn : VnodeId) : Op σ Unit := do
  let s ← Prog.get
  setOpencount vn (s.vnOpencount vn + 1)

/-- The last close calls `VOP_CLOSE`, and its failure is a warning. -/
def vnodeDecopen (ops : VnodeOps σ) (vn : VnodeId) : Op σ Unit := do
  let s ← Prog.get
  Prog.assert (0 < s.vnOpencount vn) .decopenZero
  setOpencount vn (s.vnOpencount vn - 1)
  Prog.when (s.vnOpencount vn - 1 = 0) (do
    let _ ← Prog.attempt (vop vn (ops.vopClose vn))
    pure ())

end OS161.Vfs
