import OS161.Data.Runs
import OS161.Sfs.DataCalls
import OS161.Sfs.NameCalls

namespace OS161.Sfs

open OS161.Data
open OS161.Kern
open OS161.Lib
open OS161.Vfs

/-! The calls that the rest of the kernel makes through the tables `sfs_fileops`,
`sfs_dirops` and `struct fs`. -/

variable {fs fs' : SfsFs} {dir sv ino n : Nat} {mem : Memory}

/-- `sfs_lookparent`; `buflen` is the size of the buffer that the name is copied to. -/
def sfsLookparent (sv : Nat) (path : Name) (buflen : Nat) : Op (Nat × Name) := do
  let fs ← Prog.get
  Prog.when ((fs.vnode sv).svI.get sfiType ≠ 2) (Prog.fail .ENOTDIR)
  Prog.when (buflen < path.val.length + 1) (Prog.fail .ENAMETOOLONG)
  vopIncref sv
  pure (sv, path)

/-- Run a transfer on a uio of the caller, who finds in it how far the transfer came. -/
def withUio (uio : Uio) (body : IoOp Unit) : Op (Except Errno Unit × Uio) := fun fs =>
  match body { fs := fs, uio := uio } with
  | .ok value io => .ok (.ok value, io.uio) io.fs
  | .error code io => .ok (.error code, io.uio) io.fs
  | .panic reason => .panic reason

theorem wp_withUio {post : Except Errno Unit × Uio → SfsFs → Prop}
    {fails : Errno → SfsFs → Prop} {bad : Fault → Prop} (uio : Uio) (body : IoOp Unit) :
    Prog.wp (withUio uio body) post fails bad fs ↔
      Prog.wp body (fun value io => post (.ok value, io.uio) io.fs)
        (fun code io => post (.error code, io.uio) io.fs) bad ⟨fs, uio⟩ := by
  unfold Prog.wp withUio
  cases body ⟨fs, uio⟩ with
  | ok value io => rfl
  | error code io => rfl
  | panic reason => rfl

/-! The calls and what their callers must see to. -/

inductive Call where
  | getroot (mem : Memory)
  | lookup (dir : Nat) (path : Name) (mem : Memory)
  | lookparent (dir : Nat) (path : Name) (buflen : Nat)
  | creat (dir : Nat) (name : Name) (excl : Bool) (mem : Memory)
  | link (dir : Nat) (name : Name) (file : Nat)
  | remove (dir : Nat) (name : Name) (mem : Memory)
  | rename (d1 : Nat) (n1 : Name) (d2 : Nat) (n2 : Name) (mem : Memory)
  | read (sv : Nat) (uio : Uio)
  | write (sv : Nat) (uio : Uio)
  | truncate (sv len : Nat)
  | fsync (sv : Nat)
  | sync
  | incref (sv : Nat)
  | decref (sv : Nat)

inductive Reply where
  | done
  | vnode (sv : Nat)
  | parent (dir : Nat) (name : Name)
  | moved (result : Except Errno Unit) (uio : Uio)

def asVnode (body : Op Nat) : Op Reply := do
  let sv ← body
  pure (.vnode sv)

def asDone (body : Op Unit) : Op Reply := do
  body
  pure .done

def asMoved (uio : Uio) (body : IoOp Unit) : Op Reply := do
  let (result, uio) ← withUio uio body
  pure (.moved result uio)

namespace Call

def exec : Call → Op Reply
  | .getroot mem => asVnode (sfsGetroot mem)
  | .lookup dir path mem => dirOp dir (asVnode (sfsLookup dir path mem))
  | .lookparent dir path buflen => dirOp dir (do
      let (dir, name) ← sfsLookparent dir path buflen
      pure (.parent dir name))
  | .creat dir name excl mem => dirOp dir (asVnode (sfsCreat dir name excl mem))
  | .link dir name file => dirOp dir (asDone (sfsLink dir name file))
  | .remove dir name mem => dirOp dir (asDone (sfsRemove dir name mem))
  | .rename d1 n1 d2 n2 mem => dirOp d1 (asDone (sfsRename d1 n1 d2 n2 mem))
  | .read sv uio => fileOp sv (asMoved uio (sfsRead sv))
  | .write sv uio => fileOp sv (asMoved uio (sfsWrite sv))
  | .truncate sv len => asDone (vopTruncate sv len)
  | .fsync sv => asDone (sfsFsync sv)
  | .sync => asDone sfsSync
  | .incref sv => asDone (vopIncref sv)
  | .decref sv => asDone (vopDecref sv)

/-- What a caller sees to: it holds the vnodes that it passes, `sfs_rename` gets directories,
the memory for a new vnode is not in use, and the offsets of a transfer are those of an
`off_t`. -/
def Allowed (fs : SfsFs) : Call → Prop
  | .getroot mem => mem.Fresh fs
  | .lookup dir _ mem => dir ∈ fs.sfsVnodes ∧ mem.Fresh fs
  | .lookparent dir _ _ => dir ∈ fs.sfsVnodes
  | .creat dir _ _ mem => dir ∈ fs.sfsVnodes ∧ mem.Fresh fs
  | .link dir _ file => dir ∈ fs.sfsVnodes ∧ file ∈ fs.sfsVnodes
  | .remove dir _ mem => dir ∈ fs.sfsVnodes ∧ mem.Fresh fs
  | .rename d1 _ d2 _ mem => d1 ∈ fs.sfsVnodes ∧ d2 ∈ fs.sfsVnodes ∧
      (fs.vnode d1).vnOps = .sfsDirops ∧ (fs.vnode d2).vnOps = .sfsDirops ∧ mem.Fresh fs
  | .read sv uio => sv ∈ fs.sfsVnodes ∧ uio.Covers ∧ uio.uioRw = .UIO_READ ∧
      uio.uioOffset + uio.uioResid < 2 ^ 31
  | .write sv uio => sv ∈ fs.sfsVnodes ∧ uio.Covers ∧ uio.uioRw = .UIO_WRITE ∧
      uio.uioOffset < 2 ^ 31
  | .truncate sv len => sv ∈ fs.sfsVnodes ∧ len < 2 ^ 31
  | .fsync sv => sv ∈ fs.sfsVnodes
  | .sync => True
  | .incref sv => sv ∈ fs.sfsVnodes
  | .decref sv => sv ∈ fs.sfsVnodes

/-- Where a call stops the machine. -/
def Stops (fs : SfsFs) : Call → Prop
  | .getroot mem => fs.loaded 1 = none ∧ ¬ mem.Enough
  | .rename _ n1 _ _ _ => fs.tree.names n1.val = some 1
  | _ => False

/-- What a call did to the store when it comes back with this reply. -/
def Answers (fs : SfsFs) : Call → Reply → Effect (List Byte) Nat Nat → Prop
  | .getroot _, .vnode sv, e => e = .hold sv 1
  | .lookup _ path _, .vnode sv, e =>
      ∃ ino, fs.tree.names path.val = some ino ∧ e = .hold sv ino
  | .lookparent dir path buflen, .parent dir' name, e =>
      dir' = dir ∧ name = path ∧ path.val.length < buflen ∧ e = .hold dir 1
  | .creat _ name excl _, .vnode sv, e => ∃ ino,
      excl = false ∧ fs.tree.names name.val = some ino ∧ e = .hold sv ino ∨
        e = .make name.val ino sv
  | .link _ name file, .done, e =>
      ∃ ino, fs.tree.handles file = some ino ∧ e = .link name.val ino
  | .remove _ name _, .done, e => e = .unlink name.val
  | .rename _ n1 _ n2 _, .done, e => e = .rename n1.val n2.val
  | .read sv uio, .moved result uio', e => e = .none ∧ ∃ ino, fs.tree.handles sv = some ino ∧
      (result = .ok () → uio' = uio.advance ((fs.tree.data ino).bytes.slice uio.uioOffset
        (min uio.uioResid ((fs.tree.data ino).size - uio.uioOffset))))
  | .write sv uio, .moved result uio', e => ∃ ino m, fs.tree.handles sv = some ino ∧
      e = .write ino uio.uioOffset (uio.iov.take m) ∧ uio' = uio.advance (uio.iov.take m) ∧
      (result = .ok () → m = uio.uioResid) ∧ ∀ code, result = .error code → Refused uio m code
  | .truncate sv len, .done, e => ∃ ino, fs.tree.handles sv = some ino ∧ e = .cut ino len
  | .fsync _, .done, e => e = .none
  | .sync, .done, e => e = .none
  | .incref sv, .done, e => ∃ ino, fs.tree.handles sv = some ino ∧ e = .hold sv ino
  | .decref sv, .done, e => e = .drop sv
  | _, _, _ => False

/-- The vnode is one of the root directory. -/
abbrev OnRoot (fs : SfsFs) (sv : Nat) : Prop := fs.tree.handles sv = some 1

/-- Why a call fails. -/
def Fails (fs : SfsFs) : Call → Errno → Prop
  | .lookup dir path mem, code => code = .ENOTDIR ∧ ¬ OnRoot fs dir ∨
      code = .ENOENT ∧ fs.tree.names path.val = none ∨ code = .ENOMEM ∧ ¬ mem.Enough
  | .lookparent dir path buflen, code => code = .ENOTDIR ∧ ¬ OnRoot fs dir ∨
      code = .ENAMETOOLONG ∧ buflen ≤ path.val.length
  | .creat dir name excl mem, code => code = .ENOTDIR ∧ ¬ OnRoot fs dir ∨
      excl = true ∧ fs.tree.names name.val ≠ none ∨ ¬ mem.Enough ∨ NoRoom 3 fs name
  | .link dir name _, code => code = .ENOTDIR ∧ ¬ OnRoot fs dir ∨
      fs.tree.names name.val ≠ none ∨ NoRoom 2 fs name
  | .remove dir name mem, code => code = .ENOTDIR ∧ ¬ OnRoot fs dir ∨
      fs.tree.names name.val = none ∨ ¬ mem.Enough
  | .rename _ n1 _ n2 mem, _ => fs.tree.names n1.val = none ∨ ¬ mem.Enough ∨
      fs.tree.names n2.val ≠ none ∨ NoRoom 2 fs n2
  | .read sv _, code => code = .EISDIR ∧ OnRoot fs sv
  | .write sv _, code => code = .EISDIR ∧ OnRoot fs sv
  | .truncate sv _, code => code = .EISDIR ∧ OnRoot fs sv
  | _, _ => False

end Call

/-! Each call. -/

/-- What a call leaves, whichever way it comes back. -/
def Meets (n : Nat) (fs : SfsFs) (call : Call) : Prop :=
  Prog.wp call.exec (fun reply fs' => ∃ e, call.Answers fs reply e ∧ Yields n fs e fs')
    (fun code fs' => call.Fails fs code ∧ Yields n fs .none fs') (fun _ => call.Stops fs) fs

theorem Orderly.same (h : Orderly n fs) : Yields n fs .none fs :=
  (Untouched.refl h.sound.volume).yields h

/-- A call that only directories have. -/
theorem wp_dirOp {body : Op Reply} {post : Reply → SfsFs → Prop}
    {fails : Errno → SfsFs → Prop} {bad : Fault → Prop} (h : Orderly n fs)
    (hmem : dir ∈ fs.sfsVnodes) (hnot : ¬ Call.OnRoot fs dir → fails .ENOTDIR fs)
    (hbody : Loaded fs dir 1 → Prog.wp body post fails bad fs) :
    Prog.wp (dirOp dir body) post fails bad fs := by
  have hloaded : Loaded fs dir (fs.vnode dir).svIno := ⟨hmem, rfl⟩
  simp only [dirOp, ↓Prog.wp_bind, ↓Prog.wp_get]
  rw [h.sound.volume.ops_loaded hloaded, opsOf]
  by_cases hroot : (fs.vnode dir).svIno = 1
  · rw [if_pos hroot]
    exact hbody ⟨hmem, hroot⟩
  · rw [if_neg hroot]
    exact hnot fun honroot => hroot (tree_handles.mp honroot).ino

/-- A call that only files have. -/
theorem wp_fileOp {body : Op Reply} {post : Reply → SfsFs → Prop}
    {fails : Errno → SfsFs → Prop} {bad : Fault → Prop} (h : Orderly n fs)
    (hmem : sv ∈ fs.sfsVnodes) (hnot : Call.OnRoot fs sv → fails .EISDIR fs)
    (hbody : ∀ ino, Loaded fs sv ino → ino ≠ 1 → Prog.wp body post fails bad fs) :
    Prog.wp (fileOp sv body) post fails bad fs := by
  have hloaded : Loaded fs sv (fs.vnode sv).svIno := ⟨hmem, rfl⟩
  simp only [fileOp, ↓Prog.wp_bind, ↓Prog.wp_get]
  rw [h.sound.volume.ops_loaded hloaded, opsOf]
  by_cases hroot : (fs.vnode sv).svIno = 1
  · rw [if_pos hroot]
    exact hnot (tree_handles.mpr ⟨hmem, hroot⟩)
  · rw [if_neg hroot]
    exact hbody _ hloaded hroot

theorem getroot_meets (h : Orderly n fs) (hmem : mem.Fresh fs) :
    Meets n fs (.getroot mem) := by
  have hroot := h.sound.volume.root
  simp only [Meets, Call.exec, asVnode, sfsGetroot, ↓Prog.wp_bind, ↓Prog.wp_attempt]
  refine Prog.wp_mono (Prog.wp_and (sfsLoadvnode_wp h.sound.volume hroot hmem)
    (sfsLoadvnode_reason h.sound.volume hroot)) ?_ ?_ (fun _ hbad => hbad.1.elim)
  · rintro sv fs' ⟨hout, _⟩
    exact ⟨_, rfl, hout.yields h⟩
  · rintro code fs' ⟨⟨_, _, hnone⟩, _, hshort⟩
    exact ⟨hnone, hshort⟩

theorem lookup_meets {path : Name} (h : Orderly n fs)
    (hallowed : (Call.lookup dir path mem).Allowed fs) : Meets n fs (.lookup dir path mem) := by
  obtain ⟨hin, hmem⟩ := hallowed
  refine wp_dirOp h hin (fun hnot => ⟨Or.inl ⟨rfl, hnot⟩, h.same⟩) fun hdir => ?_
  simp only [asVnode, sfsLookup, ↓Prog.wp_bind, ↓Prog.wp_get, ↓Prog.wp_when]
  rw [h.sound.volume.type_loaded hdir, if_neg (by decide)]
  refine Prog.wp_mono (Prog.wp_and (sfsLookonce_wp h.sound hdir path hmem)
    (sfsLookonce_reason h.sound hdir)) ?_ ?_ (fun _ hbad => hbad.1.elim)
  · rintro ⟨sv, slot⟩ fs' ⟨⟨ino, hbound, hout⟩, _⟩
    exact ⟨_, ⟨ino, (tree_names h.sound.names).mpr ⟨slot, hbound⟩, rfl⟩, hout.yields h⟩
  · rintro code fs' ⟨⟨huntouched, _⟩, hwhy⟩
    exact ⟨Or.inr hwhy, huntouched.yields h⟩

theorem lookparent_meets {path : Name} {buflen : Nat} (h : Orderly n fs)
    (hallowed : (Call.lookparent dir path buflen).Allowed fs) :
    Meets n fs (.lookparent dir path buflen) := by
  refine wp_dirOp h hallowed (fun hnot => ⟨Or.inl ⟨rfl, hnot⟩, h.same⟩) fun hdir => ?_
  simp only [sfsLookparent, ↓Prog.wp_bind, ↓Prog.wp_get, ↓Prog.wp_when, ↓Prog.wp_fail,
    ↓Prog.wp_pure]
  rw [h.sound.volume.type_loaded hdir, if_neg (by decide)]
  split
  case isTrue hlong => exact ⟨Or.inr ⟨rfl, by omega⟩, h.same⟩
  case isFalse hfits =>
      refine Prog.wp_mono (vopIncref_yields h hdir) ?_ (fun _ _ hfails => hfails.elim)
        (fun _ hbad => hbad.elim)
      intro _ fs' hyields
      exact ⟨_, ⟨rfl, rfl, by omega, rfl⟩, hyields⟩

theorem creat_meets {name : Name} {excl : Bool} (h : Orderly n fs)
    (hallowed : (Call.creat dir name excl mem).Allowed fs) :
    Meets n fs (.creat dir name excl mem) := by
  obtain ⟨hin, hmem⟩ := hallowed
  refine wp_dirOp h hin (fun hnot => ⟨Or.inl ⟨rfl, hnot⟩, h.same⟩) fun hdir => ?_
  simp only [asVnode, ↓Prog.wp_bind]
  refine Prog.wp_mono (sfsCreat_yields h hdir hmem excl) ?_ ?_ (fun _ hbad => hbad.elim)
  · rintro sv fs' ⟨ino, ⟨hexcl, hname, hyields⟩ | hyields⟩
    · exact ⟨_, ⟨ino, Or.inl ⟨hexcl, hname, rfl⟩⟩, hyields⟩
    · exact ⟨_, ⟨ino, Or.inr rfl⟩, hyields⟩
  · rintro code fs' ⟨hyields, hwhy⟩
    exact ⟨Or.inr hwhy, hyields⟩

theorem link_meets {name : Name} {file : Nat} (h : Orderly n fs)
    (hallowed : (Call.link dir name file).Allowed fs) : Meets n fs (.link dir name file) := by
  obtain ⟨hin, hfile⟩ := hallowed
  have hloaded : Loaded fs file (fs.vnode file).svIno := ⟨hfile, rfl⟩
  refine wp_dirOp h hin (fun hnot => ⟨Or.inl ⟨rfl, hnot⟩, h.same⟩) fun hdir => ?_
  simp only [asDone, ↓Prog.wp_bind]
  refine Prog.wp_mono (sfsLink_yields h hdir hloaded) ?_ ?_ (fun _ hbad => hbad.elim)
  · intro _ fs' hyields
    exact ⟨_, ⟨_, tree_handles.mpr hloaded, rfl⟩, hyields⟩
  · rintro code fs' ⟨hyields, hwhy⟩
    exact ⟨Or.inr hwhy, hyields⟩

theorem remove_meets {name : Name} (h : Orderly n fs)
    (hallowed : (Call.remove dir name mem).Allowed fs) : Meets n fs (.remove dir name mem) := by
  obtain ⟨hin, hmem⟩ := hallowed
  refine wp_dirOp h hin (fun hnot => ⟨Or.inl ⟨rfl, hnot⟩, h.same⟩) fun hdir => ?_
  simp only [asDone, ↓Prog.wp_bind]
  refine Prog.wp_mono (sfsRemove_yields h hdir hmem) ?_ ?_ (fun _ hbad => hbad.elim)
  · exact fun _ fs' hyields => ⟨_, rfl, hyields⟩
  · rintro code fs' ⟨hyields, hwhy⟩
    exact ⟨Or.inr hwhy, hyields⟩

/-- The only directory is the root. -/
theorem Orderly.dirops (h : Orderly n fs) (hin : dir ∈ fs.sfsVnodes)
    (hops : (fs.vnode dir).vnOps = .sfsDirops) : Loaded fs dir 1 := by
  refine ⟨hin, ?_⟩
  rw [h.sound.volume.ops dir hin, opsOf] at hops
  by_contra hne
  rw [if_neg hne] at hops
  cases hops

theorem rename_meets {d1 d2 : Nat} {n1 n2 : Name} (h : Orderly n fs)
    (hallowed : (Call.rename d1 n1 d2 n2 mem).Allowed fs) :
    Meets n fs (.rename d1 n1 d2 n2 mem) := by
  obtain ⟨hin1, hin2, hops1, hops2, hmem⟩ := hallowed
  obtain rfl := (h.dirops hin2 hops2).vnode_eq h.sound.files (h.dirops hin1 hops1)
  refine wp_dirOp h hin1 (fun hnot => absurd (tree_handles.mpr (h.dirops hin1 hops1)) hnot)
    fun hdir => ?_
  simp only [asDone, ↓Prog.wp_bind]
  by_cases hroot : fs.Binds n1.val 1
  · refine Prog.wp_mono (sfsRename_stops h.sound hdir hmem hroot) (fun _ _ hdone => hdone.elim)
      (fun _ _ hfails => hfails.elim) (fun _ _ => (tree_names h.sound.names).mpr hroot)
  · refine Prog.wp_mono (sfsRename_yields h hdir hmem hroot) ?_ ?_ (fun _ hbad => hbad.elim)
    · exact fun _ fs' hyields => ⟨_, rfl, hyields⟩
    · rintro code fs' ⟨hyields, hwhy⟩
      exact ⟨hwhy, hyields⟩

theorem read_meets {uio : Uio} (h : Orderly n fs) (hallowed : (Call.read sv uio).Allowed fs) :
    Meets n fs (.read sv uio) := by
  obtain ⟨hin, hcovers, hread, hend⟩ := hallowed
  refine wp_fileOp h hin (fun honroot => ⟨⟨rfl, honroot⟩, h.same⟩) fun ino hloaded hfile => ?_
  have hdata := hloaded.tree_data h.sound.files
  simp only [asMoved, ↓Prog.wp_bind, wp_withUio, sfsRead, ↓Prog.wp_get, ↓Prog.wp_assert]
  rw [if_pos hread]
  refine Prog.wp_mono (sfsIo_fetch h.sound.files hloaded hcovers hread (h.size_lt hloaded) hend)
    ?_ ?_ (fun _ hbad => hbad.elim)
  · rintro _ _ rfl
    refine ⟨_, ⟨rfl, ino, tree_handles.mpr hloaded, fun _ => ?_⟩, h.same⟩
    rw [hdata]
  · rintro code ⟨fs', uio'⟩ ⟨hsame, _⟩
    obtain rfl : fs' = fs := hsame
    exact ⟨_, ⟨rfl, ino, tree_handles.mpr hloaded, fun hok => by cases hok⟩, h.same⟩

theorem write_meets {uio : Uio} (h : Orderly n fs) (hallowed : (Call.write sv uio).Allowed fs) :
    Meets n fs (.write sv uio) := by
  obtain ⟨hin, hcovers, hwrite, hoffset⟩ := hallowed
  refine wp_fileOp h hin (fun honroot => ⟨⟨rfl, honroot⟩, h.same⟩) fun ino hloaded hfile => ?_
  simp only [asMoved, ↓Prog.wp_bind, wp_withUio, sfsWrite, ↓Prog.wp_get, ↓Prog.wp_assert]
  rw [if_pos hwrite]
  refine Prog.wp_mono (sfsIo_write h.sound.files hloaded hcovers hwrite (by omega)) ?_ ?_
    (fun _ hbad => hbad.elim)
  · rintro _ ⟨fs', uio'⟩ hstored
    exact ⟨_, ⟨ino, _, tree_handles.mpr hloaded, rfl, hstored.uio, fun _ => rfl,
      fun _ herror => by cases herror⟩, hstored.yields h hloaded hfile hcovers hoffset⟩
  · rintro code ⟨fs', uio'⟩ ⟨m, hstored, hrefused⟩
    refine ⟨_, ⟨ino, m, tree_handles.mpr hloaded, rfl, hstored.uio, (fun hok => by cases hok), ?_⟩,
      hstored.yields h hloaded hfile hcovers hoffset⟩
    rintro _ ⟨⟩
    exact hrefused

theorem truncate_meets {len : Nat} (h : Orderly n fs)
    (hallowed : (Call.truncate sv len).Allowed fs) : Meets n fs (.truncate sv len) := by
  obtain ⟨hin, hlen⟩ := hallowed
  have hloaded : Loaded fs sv (fs.vnode sv).svIno := ⟨hin, rfl⟩
  simp only [Meets, Call.exec, asDone, ↓Prog.wp_bind]
  refine Prog.wp_mono (vopTruncate_yields h hloaded hlen) ?_ ?_ (fun _ hbad => hbad.elim)
  · rintro _ fs' ⟨_, hyields⟩
    exact ⟨_, ⟨_, tree_handles.mpr hloaded, rfl⟩, hyields⟩
  · rintro code fs' ⟨hyields, hcode, hroot⟩
    refine ⟨⟨hcode, tree_handles.mpr ⟨hin, hroot⟩⟩, hyields⟩

/-- Every call that keeps to the rules does what it answers, fails for the reasons that it
has, and stops the machine nowhere else than there. -/
theorem call_meets (h : Orderly n fs) {call : Call} (hallowed : call.Allowed fs) :
    Meets n fs call := by
  cases call with
  | getroot mem => exact getroot_meets h hallowed
  | lookup dir path mem => exact lookup_meets h hallowed
  | lookparent dir path buflen => exact lookparent_meets h hallowed
  | creat dir name excl mem => exact creat_meets h hallowed
  | link dir name file => exact link_meets h hallowed
  | remove dir name mem => exact remove_meets h hallowed
  | rename d1 n1 d2 n2 mem => exact rename_meets h hallowed
  | read sv uio => exact read_meets h hallowed
  | write sv uio => exact write_meets h hallowed
  | truncate sv len => exact truncate_meets h hallowed
  | fsync sv =>
      have hloaded : Loaded fs sv (fs.vnode sv).svIno := ⟨hallowed, rfl⟩
      simp only [Meets, Call.exec, asDone, ↓Prog.wp_bind]
      exact Prog.wp_mono (sfsFsync_quiet h.sound.volume hloaded)
        (fun _ _ hquiet => ⟨_, rfl, hquiet.yields h⟩) (fun _ _ hfails => hfails.elim)
        (fun _ hbad => hbad.elim)
  | sync =>
      simp only [Meets, Call.exec, asDone, ↓Prog.wp_bind]
      exact Prog.wp_mono (sfsSync_quiet h.sound.volume)
        (fun _ _ hquiet => ⟨_, rfl, hquiet.yields h⟩) (fun _ _ hfails => hfails.elim)
        (fun _ hbad => hbad.elim)
  | incref sv =>
      have hloaded : Loaded fs sv (fs.vnode sv).svIno := ⟨hallowed, rfl⟩
      simp only [Meets, Call.exec, asDone, ↓Prog.wp_bind]
      exact Prog.wp_mono (vopIncref_yields h hloaded)
        (fun _ _ hyields => ⟨_, ⟨_, tree_handles.mpr hloaded, rfl⟩, hyields⟩)
        (fun _ _ hfails => hfails.elim) (fun _ hbad => hbad.elim)
  | decref sv =>
      have hloaded : Loaded fs sv (fs.vnode sv).svIno := ⟨hallowed, rfl⟩
      simp only [Meets, Call.exec, asDone, ↓Prog.wp_bind]
      exact Prog.wp_mono (vopDecref_yields h hloaded) (fun _ _ hyields => ⟨_, rfl, hyields⟩)
        (fun _ _ hfails => hfails.elim) (fun _ hbad => hbad.elim)

end OS161.Sfs
