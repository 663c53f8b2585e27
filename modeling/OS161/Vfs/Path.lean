import OS161.Vfs.Vnode

namespace OS161.Vfs

open OS161.Data
open OS161.Kern

/-! Path translation and the calls on paths: `vfslookup.c`, `vfscwd.c` and
`vfspath.c`. -/

variable {σ : Type} (ops : VnodeOps σ)

def colon : Byte := 58

def slash : Byte := 47

/-- `vfs_getroot`, with the reference that it hands out. -/
def vfsGetroot (devname : CString) : Op σ VnodeId := do
  let s ← Prog.get
  match getrootAnswer s.knowndevs devname with
  | .root fs => ops.fsopGetroot fs
  | .device vnode => do
      vnodeIncref vnode
      pure vnode
  | .fails code => Prog.fail code
  | .stops reason => Prog.panic reason

/-! The current directory. -/

def vfsGetcurdir : Op σ VnodeId := do
  let s ← Prog.get
  match s.tCwd with
  | some cwd => do
      vnodeIncref cwd
      pure cwd
  | none => Prog.fail .ENOENT

/-- Drop the reference of a variable that another vnode took. -/
def dropOld : Option VnodeId → Op σ Unit
  | some old => vnodeDecref ops old
  | none => pure ()

/-- Put another vnode in `t_cwd` and hand back the old one. -/
def exchangeCwd (dir : VnodeId) : Op σ (Option VnodeId) := do
  let s ← Prog.get
  Prog.modify fun s => { s with tCwd := some dir }
  pure s.tCwd

/-- `S_ISDIR`. -/
def isDir (vtype : Nat) : Prop := vtype &&& 0o70000 = 0o20000

instance (vtype : Nat) : Decidable (isDir vtype) := inferInstanceAs (Decidable (_ = _))

def vfsSetcurdir (dir : VnodeId) : Op σ Unit := do
  let vtype ← vop dir (ops.vopGettype dir)
  Prog.when (¬ isDir vtype) (Prog.fail .ENOTDIR)
  vnodeIncref dir
  let old ← exchangeCwd dir
  dropOld ops old

/-! Names to vnodes. -/

/-- The vnode that `/path` or `:path` starts from. -/
def rootOf (first : Byte) : Op σ VnodeId :=
  if first = slash then do
    let s ← Prog.get
    match s.bootfsVnode with
    | none => Prog.fail .ENOENT
    | some bootfs => do
        vnodeIncref bootfs
        pure bootfs
  else do
    let vn ← vfsGetcurdir
    let s ← Prog.get
    match s.vnFs vn with
    | none => Prog.panic .getdeviceFs
    | some fs => do
        let startvn ← ops.fsopGetroot fs
        vnodeDecref ops vn
        pure startvn

/-- The path left to look up and the vnode to start from. -/
def getdevice (path : CString) : Op σ (CString × VnodeId) :=
  match path.findIdx? (fun c => c = colon || c = slash), path with
  | some 0, first :: rest => do
      let startvn ← rootOf ops first
      pure (rest.dropWhile (· = slash), startvn)
  | some (i + 1), _ =>
      if path[i + 1]? = some colon then do
        let startvn ← vfsGetroot ops (path.take (i + 1))
        pure ((path.drop (i + 2)).dropWhile (· = slash), startvn)
      else do
        let startvn ← vfsGetcurdir
        pure (path, startvn)
  | _, _ => do
      let startvn ← vfsGetcurdir
      pure (path, startvn)

/-- Run a call, drop a reference whatever came of it, and hand its result back. -/
def thenDecref (vn : VnodeId) (body : Op σ α) : Op σ α := do
  let result ← Prog.attempt body
  vnodeDecref ops vn
  match result with
  | .ok value => pure value
  | .error code => Prog.fail code

def vfsLookparent (path : CString) : Op σ (VnodeId × CString) := do
  let (path, startvn) ← getdevice ops path
  thenDecref ops startvn
    (if path.length = 0 then Prog.fail .EINVAL
    else vop startvn (ops.vopLookparent startvn path))

def vfsLookup (path : CString) : Op σ VnodeId := do
  let (path, startvn) ← getdevice ops path
  if path.length = 0 then pure startvn
  else thenDecref ops startvn (vop startvn (ops.vopLookup startvn path))

def vfsChdir (path : CString) : Op σ Unit := do
  let vn ← vfsLookup ops path
  thenDecref ops vn (vfsSetcurdir ops vn)

/-! The boot file system. -/

/-- Put another vnode in `bootfs_vnode` and hand back the old one. -/
def exchangeBootfs (newguy : Option VnodeId) : Op σ (Option VnodeId) := do
  let s ← Prog.get
  Prog.modify fun s => { s with bootfsVnode := newguy }
  pure s.bootfsVnode

def changeBootfs (newguy : Option VnodeId) : Op σ Unit := do
  let oldguy ← exchangeBootfs newguy
  dropOld ops oldguy

/-- A colon is not accepted anywhere: the rest of the name from the colon on is never
empty. -/
def vfsSetbootfs (fsname : CString) : Op σ Unit := do
  let tmp := fsname.take 254
  if colon ∈ tmp then Prog.fail .EINVAL
  else do
    vfsChdir ops (tmp ++ [colon])
    let newguy ← vfsGetcurdir
    changeBootfs ops (some newguy)

/-! Calls on paths. -/

/-- The vnode that `vfs_open` opens, created if the flags ask for it. -/
def openVnode (path : CString) (openflags : Nat) : Op σ VnodeId :=
  if openflags &&& 4 ≠ 0 then do
    let (dir, name) ← vfsLookparent ops path
    thenDecref ops dir (vop dir (ops.vopCreat dir name (openflags &&& 8 ≠ 0)))
  else vfsLookup ops path

/-- Undo what `vfs_open` did and return the error code. -/
def openUndo (vn : VnodeId) (code : Errno) : Op σ α := do
  vnodeDecopen ops vn
  vnodeDecref ops vn
  Prog.fail code

def openTruncate (vn : VnodeId) (canwrite : Bool) : Op σ Unit :=
  if canwrite = false then Prog.fail .EINVAL
  else vop vn (ops.vopTruncate vn 0)

def vfsOpen (path : CString) (openflags : Nat) : Op σ VnodeId := do
  let how := openflags &&& 3
  Prog.when (how = 3) (Prog.fail .EINVAL)
  let vn ← openVnode ops path openflags
  match ← Prog.attempt (vop vn (ops.vopOpen vn openflags)) with
  | .error code => do
      vnodeDecref ops vn
      Prog.fail code
  | .ok _ => do
      vnodeIncopen vn
      if openflags &&& 16 ≠ 0 then do
        match ← Prog.attempt (openTruncate ops vn (how ≠ 0)) with
        | .error code => openUndo ops vn code
        | .ok _ => pure vn
      else pure vn

def vfsClose (vn : VnodeId) : Op σ Unit := do
  vnodeDecopen ops vn
  vnodeDecref ops vn

def vfsRemove (path : CString) : Op σ Unit := do
  let (dir, name) ← vfsLookparent ops path
  thenDecref ops dir (vop dir (ops.vopRemove dir name))

/-- `EXDEV` unless both vnodes are on one file system. -/
def sameFs (vn vn' : VnodeId) (body : Op σ Unit) : Op σ Unit := do
  let s ← Prog.get
  if s.vnFs vn = none ∨ s.vnFs vn' = none ∨ s.vnFs vn ≠ s.vnFs vn' then Prog.fail .EXDEV
  else body

def vfsRename (oldpath newpath : CString) : Op σ Unit := do
  let (olddir, oldname) ← vfsLookparent ops oldpath
  thenDecref ops olddir (do
    let (newdir, newname) ← vfsLookparent ops newpath
    thenDecref ops newdir
      (sameFs olddir newdir (vop olddir (ops.vopRename olddir oldname newdir newname))))

def vfsLink (oldpath newpath : CString) : Op σ Unit := do
  let oldfile ← vfsLookup ops oldpath
  thenDecref ops oldfile (do
    let (newdir, newname) ← vfsLookparent ops newpath
    thenDecref ops newdir (sameFs oldfile newdir (vop newdir (ops.vopLink newdir newname oldfile))))

end OS161.Vfs
