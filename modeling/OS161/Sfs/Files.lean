import OS161.Data.Holding
import OS161.Sfs.FreeMap

namespace OS161.Sfs

open OS161.Data
open OS161.Kern
open OS161.Lib
open OS161.Vfs

/-! The files of a mounted file system: their inodes, the blocks with their data,
and the places that hold the numbers of these blocks. -/

variable {fs fs' fs'' : SfsFs} {live : Nat → Bool} {sv ino n : Nat}

/-! The fields of an inode are apart. -/

section Fields

variable (r : Block)

@[simp] theorem direct_set_direct (hi : i < 15) (hj : j < 15) (hx : x < 2 ^ 32) :
    (r.set (sfiDirect i) x).get (sfiDirect j) = if j = i then x else r.get (sfiDirect j) := by
  split
  case isTrue heq =>
      rw [heq]
      exact Record.get_set r (by simp only [sfiDirect]; omega) hx
  case isFalse hne =>
      apply Record.get_set_of_disjoint
      · simp only [sfiDirect]
        omega
      · simp only [sfiDirect]
        omega

@[simp] theorem indirect_set_direct (hi : i < 15) :
    (r.set (sfiDirect i) x).get sfiIndirect = r.get sfiIndirect := by
  apply Record.get_set_of_disjoint
  · decide
  · simp only [sfiDirect, sfiIndirect]
    omega

@[simp] theorem direct_set_indirect (hj : j < 15) :
    (r.set sfiIndirect x).get (sfiDirect j) = r.get (sfiDirect j) := by
  apply Record.get_set_of_disjoint
  · simp only [sfiDirect]
    omega
  · simp only [sfiDirect, sfiIndirect]
    omega

@[simp] theorem indirect_set_indirect (hx : x < 2 ^ 32) :
    (r.set sfiIndirect x).get sfiIndirect = x :=
  Record.get_set r (by decide) hx

/-- A field before the block numbers. -/
structure Header (field : Bytes.Field) : Prop where
  fits : field.off + field.len ≤ 8

theorem header_sfiSize : Header sfiSize := ⟨by decide⟩

theorem header_sfiType : Header sfiType := ⟨by decide⟩

theorem header_sfiLinkcount : Header sfiLinkcount := ⟨by decide⟩

theorem Header.set_direct {field : Bytes.Field} (hfield : Header field) (i x : Nat) :
    (r.set (sfiDirect i) x).get field = r.get field := by
  have hfits := hfield.fits
  apply Record.get_set_of_disjoint
  · omega
  · simp only [sfiDirect]
    omega

theorem Header.set_indirect {field : Bytes.Field} (hfield : Header field) (x : Nat) :
    (r.set sfiIndirect x).get field = r.get field := by
  have hfits := hfield.fits
  apply Record.get_set_of_disjoint
  · omega
  · simp only [sfiIndirect]
    omega

theorem Header.direct {field : Bytes.Field} (hfield : Header field) (hj : j < 15) (x : Nat) :
    (r.set field x).get (sfiDirect j) = r.get (sfiDirect j) := by
  have hfits := hfield.fits
  apply Record.get_set_of_disjoint
  · simp only [sfiDirect]
    omega
  · simp only [sfiDirect]
    omega

theorem Header.indirect {field : Bytes.Field} (hfield : Header field) (x : Nat) :
    (r.set field x).get sfiIndirect = r.get sfiIndirect := by
  have hfits := hfield.fits
  apply Record.get_set_of_disjoint
  · decide
  · simp only [sfiIndirect]
    omega

@[simp] theorem entry_set_entry (hi : i < 128) (hj : j < 128) (hx : x < 2 ^ 32) :
    (r.set (idbufEntry i) x).get (idbufEntry j) =
      if j = i then x else r.get (idbufEntry j) := by
  split
  case isTrue heq =>
      rw [heq]
      exact Record.get_set r (by simp only [idbufEntry]; omega) hx
  case isFalse hne =>
      apply Record.get_set_of_disjoint
      · simp only [idbufEntry]
        omega
      · simp only [idbufEntry]
        omega

end Fields

/-! Inodes and blocks. -/

/-- Where an inode keeps the number of a block; `inode` is the block it is in itself. -/
inductive Slot where
  | inode
  | data (k : Nat)
  | indirect
  deriving DecidableEq, Repr

structure Place where
  ino : Nat
  slot : Slot
  deriving DecidableEq, Repr

/-- The vnode in memory of an inode. -/
def SfsFs.loaded (fs : SfsFs) (ino : Nat) : Option Nat :=
  fs.sfsVnodes.find? fun sv => (fs.vnode sv).svIno = ino

/-- The inode as it stands: in memory, or on the disk when it is not loaded. -/
def SfsFs.inode (fs : SfsFs) (ino : Nat) : Block :=
  match fs.loaded ino with
  | some sv => (fs.vnode sv).svI
  | none => fs.disk ino

/-- The number of the block with block `k` of the file; 0 for a hole. -/
def dataBlock (disk : Nat → Block) (inode : Block) (k : Nat) : Nat :=
  if k < 15 then inode.get (sfiDirect k)
  else if k < 143 ∧ inode.get sfiIndirect ≠ 0 then
    (disk (inode.get sfiIndirect)).get (idbufEntry (k - 15))
  else 0

def SfsFs.blockAt (fs : SfsFs) (ino : Nat) : Slot → Nat
  | .inode => ino
  | .data k => dataBlock fs.disk (fs.inode ino) k
  | .indirect => (fs.inode ino).get sfiIndirect

/-- The block number in a place; `live` are the inodes there are. -/
def SfsFs.held (fs : SfsFs) (live : Nat → Bool) (p : Place) : Nat :=
  if live p.ino = true then fs.blockAt p.ino p.slot else 0

/-- Block `k` of the file; a hole reads as zeros. -/
def fileBlock (disk : Nat → Block) (inode : Block) (k : Nat) : Block :=
  if dataBlock disk inode k = 0 then Record.zeros else disk (dataBlock disk inode k)

def SfsFs.file (fs : SfsFs) (ino : Nat) : Nat → Block := fileBlock fs.disk (fs.inode ino)

theorem dataBlock_congr {disk disk' : Nat → Block} {inode : Block} (k : Nat)
    (hsame : inode.get sfiIndirect ≠ 0 →
      disk' (inode.get sfiIndirect) = disk (inode.get sfiIndirect)) :
    dataBlock disk' inode k = dataBlock disk inode k := by
  unfold dataBlock
  split
  case isTrue => rfl
  case isFalse =>
      split
      case isTrue hindirect => rw [hsame hindirect.2]
      case isFalse => rfl

theorem dataBlock_set_direct (disk : Nat → Block) (inode : Block) (hi : i < 15)
    (hx : x < 2 ^ 32) (k : Nat) :
    dataBlock disk (inode.set (sfiDirect i) x) k = if k = i then x else dataBlock disk inode k := by
  unfold dataBlock
  rw [indirect_set_direct _ hi]
  by_cases hk : k < 15
  · rw [if_pos hk, if_pos hk, direct_set_direct _ hi hk hx]
  · have hne : k ≠ i := by omega
    rw [if_neg hk, if_neg hk, if_neg hne]

theorem dataBlock_set_entry {disk disk' : Nat → Block} {inode : Block} (hj : j < 128)
    (hx : x < 2 ^ 32) (hmapped : inode.get sfiIndirect ≠ 0)
    (hset : disk' (inode.get sfiIndirect) =
      (disk (inode.get sfiIndirect)).set (idbufEntry j) x) (k : Nat) :
    dataBlock disk' inode k = if k = 15 + j then x else dataBlock disk inode k := by
  unfold dataBlock
  rw [hset]
  by_cases hk : k < 15
  · have hne : k ≠ 15 + j := by omega
    rw [if_pos hk, if_pos hk, if_neg hne]
  · rw [if_neg hk, if_neg hk]
    by_cases hrange : k < 143
    · have hin : k < 143 ∧ inode.get sfiIndirect ≠ 0 := ⟨hrange, hmapped⟩
      rw [if_pos hin, if_pos hin, entry_set_entry _ hj (by omega) hx]
      by_cases heq : k = 15 + j
      · have heq' : k - 15 = j := by omega
        rw [if_pos heq, if_pos heq']
      · have hne : k - 15 ≠ j := by omega
        rw [if_neg heq, if_neg hne]
    · have hne : k ≠ 15 + j := by omega
      have hpast : ¬ (k < 143 ∧ inode.get sfiIndirect ≠ 0) := fun hk => hrange hk.1
      rw [if_neg hpast, if_neg hpast, if_neg hne]

theorem dataBlock_set_header (disk : Nat → Block) (inode : Block) {field : Bytes.Field}
    (hfield : Header field) (x k : Nat) :
    dataBlock disk (inode.set field x) k = dataBlock disk inode k := by
  unfold dataBlock
  rw [hfield.indirect]
  by_cases hk : k < 15
  · rw [if_pos hk, if_pos hk, hfield.direct _ hk]
  · rw [if_neg hk, if_neg hk]

theorem fileBlock_congr {disk disk' : Nat → Block} {inode inode' : Block} {k : Nat}
    (hblock : dataBlock disk' inode' k = dataBlock disk inode k)
    (hsame : dataBlock disk inode k ≠ 0 →
      disk' (dataBlock disk inode k) = disk (dataBlock disk inode k)) :
    fileBlock disk' inode' k = fileBlock disk inode k := by
  unfold fileBlock
  rw [hblock]
  split
  case isTrue => rfl
  case isFalse hmapped => exact hsame hmapped

/-- A sequence of blocks as bytes. -/
def fileBytes (file : Nat → Block) : Bytes := fun pos => (file (pos / 512)).bytes (pos % 512)

/-- What a block number must be to stand in a place. -/
def Fits (n : Nat) (fs : SfsFs) (p : Place) (b : Nat) : Prop :=
  fs.sfsFreemap.bitmapIsset b = true ∧ (p ≠ ⟨1, .inode⟩ → ¬ Reserved n b)

/-- A file system of `n` blocks on a device without errors, with the inodes `live`. -/
structure Files (n : Nat) (live : Nat → Bool) (fs : SfsFs) : Prop where
  sized : Covered n
  guarded : Guarded n fs
  quiet : fs.mediaErrors = []
  nodup : fs.sfsVnodes.Nodup
  distinct : ∀ sv ∈ fs.sfsVnodes, ∀ sv' ∈ fs.sfsVnodes,
    (fs.vnode sv).svIno = (fs.vnode sv').svIno → sv = sv'
  alive : ∀ sv ∈ fs.sfsVnodes, live (fs.vnode sv).svIno = true
  dead : live 0 = false
  clean : ∀ sv ∈ fs.sfsVnodes, (fs.vnode sv).svDirty = false →
    fs.disk (fs.vnode sv).svIno = (fs.vnode sv).svI
  holding : Holding (fs.held live) (Fits n fs)

theorem held_of_live (hlive : live ino = true) (slot : Slot) :
    fs.held live ⟨ino, slot⟩ = fs.blockAt ino slot := by
  rw [SfsFs.held, if_pos hlive]

theorem Files.loaded_eq (h : Files n live fs) (hsv : sv ∈ fs.sfsVnodes) :
    fs.loaded (fs.vnode sv).svIno = some sv := by
  unfold SfsFs.loaded
  cases hfind : fs.sfsVnodes.find? fun sv' => (fs.vnode sv').svIno = (fs.vnode sv).svIno with
  | none =>
      have hnone := List.find?_eq_none.mp hfind sv hsv
      simp at hnone
  | some found =>
      have hino := List.find?_some hfind
      rw [decide_eq_true_eq] at hino
      rw [h.distinct found (List.mem_of_find?_eq_some hfind) sv hsv hino]

theorem Files.inode_eq (h : Files n live fs) (hsv : sv ∈ fs.sfsVnodes) :
    fs.inode (fs.vnode sv).svIno = (fs.vnode sv).svI := by
  rw [SfsFs.inode, h.loaded_eq hsv]

theorem Files.ne_zero (h : Files n live fs) (hlive : live ino = true) : ino ≠ 0 := by
  intro hzero
  rw [hzero, h.dead] at hlive
  cases hlive

/-- A block of the disk that a place holds is in range. -/
theorem Files.lt (h : Files n live fs) (hp : fs.held live p ≠ 0) : fs.held live p < n := by
  obtain ⟨-, hfree⟩ := h.holding.fits p hp
  by_cases hroot : p = ⟨1, .inode⟩
  · have hlow := h.sized.low
    subst hroot
    simp only [SfsFs.held, SfsFs.blockAt] at hp ⊢
    split
    · omega
    · omega
  · have hunreserved := hfree hroot
    unfold Reserved at hunreserved
    omega

theorem Files.isset (h : Files n live fs) (hp : fs.held live p ≠ 0) :
    fs.sfsFreemap.bitmapIsset (fs.held live p) = true :=
  (h.holding.fits p hp).1

/-! Changes to one file. -/

/-- Of the vnodes, the inodes and the blocks of files, only those of `sv` change. -/
structure OnlyFile (live : Nat → Bool) (sv : Nat) (fs fs' : SfsFs) : Prop where
  vnodes : fs'.sfsVnodes = fs.sfsVnodes
  vnode : ∀ other, other ≠ sv → fs'.vnode other = fs.vnode other
  ino : (fs'.vnode sv).svIno = (fs.vnode sv).svIno
  ops : (fs'.vnode sv).vnOps = (fs.vnode sv).vnOps
  refcount : (fs'.vnode sv).vnRefcount = (fs.vnode sv).vnRefcount
  type : (fs'.vnode sv).svI.get sfiType = (fs.vnode sv).svI.get sfiType
  linkcount : (fs'.vnode sv).svI.get sfiLinkcount = (fs.vnode sv).svI.get sfiLinkcount
  disk : ∀ ino slot, live ino = true → ino ≠ (fs.vnode sv).svIno → fs.blockAt ino slot ≠ 0 →
    fs'.disk (fs.blockAt ino slot) = fs.disk (fs.blockAt ino slot)

namespace OnlyFile

theorem refl (live : Nat → Bool) (sv : Nat) (fs : SfsFs) : OnlyFile live sv fs fs :=
  ⟨rfl, fun _ _ => rfl, rfl, rfl, rfl, rfl, rfl, fun _ _ _ _ _ => rfl⟩

theorem svIno (honly : OnlyFile live sv fs fs') (other : Nat) :
    (fs'.vnode other).svIno = (fs.vnode other).svIno := by
  by_cases hother : other = sv
  · rw [hother, honly.ino]
  · rw [honly.vnode other hother]

theorem loaded (honly : OnlyFile live sv fs fs') : fs'.loaded = fs.loaded := by
  funext ino
  simp only [SfsFs.loaded, honly.vnodes, honly.svIno]

theorem inode_own (honly : OnlyFile live sv fs fs') (h : Files n live fs)
    (hsv : sv ∈ fs.sfsVnodes) : fs'.inode (fs.vnode sv).svIno = (fs'.vnode sv).svI := by
  rw [SfsFs.inode, honly.loaded, h.loaded_eq hsv]

variable (honly : OnlyFile live sv fs fs') (hlive : live ino = true)
  (hne : ino ≠ (fs.vnode sv).svIno)

include honly hlive hne

theorem inode (hzero : ino ≠ 0) : fs'.inode ino = fs.inode ino := by
  rw [SfsFs.inode, SfsFs.inode, honly.loaded]
  cases hloaded : fs.loaded ino with
  | none => exact honly.disk ino .inode hlive hne hzero
  | some other =>
      have hino := List.find?_some hloaded
      rw [decide_eq_true_eq] at hino
      have hother : other ≠ sv := by
        intro heq
        rw [← hino, heq] at hne
        exact hne rfl
      simp only [honly.vnode other hother]

theorem blockAt (hzero : ino ≠ 0) (slot : Slot) : fs'.blockAt ino slot = fs.blockAt ino slot := by
  have hinode := honly.inode hlive hne hzero
  cases slot with
  | inode => rfl
  | indirect => simp only [SfsFs.blockAt, hinode]
  | data k =>
      simp only [SfsFs.blockAt, hinode]
      exact dataBlock_congr k (honly.disk ino .indirect hlive hne)

theorem file (hzero : ino ≠ 0) : fs'.file ino = fs.file ino := by
  funext k
  exact fileBlock_congr (honly.blockAt hlive hne hzero (.data k))
    (honly.disk ino (.data k) hlive hne)

end OnlyFile

namespace OnlyFile

theorem trans (hfirst : OnlyFile live sv fs fs') (hsecond : OnlyFile live sv fs' fs'')
    (hdead : live 0 = false) : OnlyFile live sv fs fs'' where
  vnodes := hsecond.vnodes.trans hfirst.vnodes
  vnode other hother := (hsecond.vnode other hother).trans (hfirst.vnode other hother)
  ino := hsecond.ino.trans hfirst.ino
  ops := hsecond.ops.trans hfirst.ops
  refcount := hsecond.refcount.trans hfirst.refcount
  type := hsecond.type.trans hfirst.type
  linkcount := hsecond.linkcount.trans hfirst.linkcount
  disk ino slot hlive hne hblock := by
    have hzero : ino ≠ 0 := by
      intro hzero
      rw [hzero, hdead] at hlive
      cases hlive
    have hmid := hfirst.blockAt hlive hne hzero slot
    have hsame := hsecond.disk ino slot hlive (by rw [hfirst.ino]; exact hne)
    rw [hmid] at hsame
    rw [hsame hblock, hfirst.disk ino slot hlive hne hblock]

theorem held_of_ne (honly : OnlyFile live sv fs fs') (hdead : live 0 = false) {p : Place}
    (hne : p.ino ≠ (fs.vnode sv).svIno) : fs'.held live p = fs.held live p := by
  unfold SfsFs.held
  split
  case isTrue hlive =>
      refine honly.blockAt hlive hne ?_ p.slot
      intro hzero
      rw [hzero, hdead] at hlive
      cases hlive
  case isFalse => rfl

/-- The file holds what it held. -/
theorem held_eq (honly : OnlyFile live sv fs fs') (hdead : live 0 = false)
    (hsame : ∀ slot, fs'.blockAt (fs.vnode sv).svIno slot = fs.blockAt (fs.vnode sv).svIno slot) :
    fs'.held live = fs.held live := by
  funext p
  by_cases hino : p.ino = (fs.vnode sv).svIno
  · unfold SfsFs.held
    rw [hino, hsame]
  · exact honly.held_of_ne hdead hino

/-- One place of the file changes. -/
theorem held_update (honly : OnlyFile live sv fs fs') (hdead : live 0 = false)
    (hlive : live (fs.vnode sv).svIno = true) (slot : Slot)
    (hsame : ∀ other, other ≠ slot →
      fs'.blockAt (fs.vnode sv).svIno other = fs.blockAt (fs.vnode sv).svIno other) :
    fs'.held live = Function.update (fs.held live) ⟨(fs.vnode sv).svIno, slot⟩
      (fs'.blockAt (fs.vnode sv).svIno slot) := by
  funext p
  obtain ⟨ino, other⟩ := p
  by_cases hino : ino = (fs.vnode sv).svIno
  · subst hino
    by_cases hslot : other = slot
    · rw [hslot, Function.update_self, held_of_live hlive]
    · rw [Function.update_of_ne (by simpa using hslot), held_of_live hlive,
        held_of_live hlive, hsame other hslot]
  · rw [Function.update_of_ne (by simp [hino]), honly.held_of_ne hdead hino]

end OnlyFile

theorem Files.edit (h : Files n live fs) (hsv : sv ∈ fs.sfsVnodes)
    (honly : OnlyFile live sv fs fs') (hguarded : Guarded n fs') (hquiet : fs'.mediaErrors = [])
    (hclean : (fs'.vnode sv).svDirty = false →
      fs'.disk (fs.vnode sv).svIno = (fs'.vnode sv).svI)
    (hholding : Holding (fs'.held live) (Fits n fs')) : Files n live fs' where
  sized := h.sized
  guarded := hguarded
  quiet := hquiet
  nodup := by
    rw [honly.vnodes]
    exact h.nodup
  distinct := by
    intro first hfirst second hsecond hsame
    rw [honly.vnodes] at hfirst hsecond
    rw [honly.svIno, honly.svIno] at hsame
    exact h.distinct first hfirst second hsecond hsame
  alive := by
    intro other hother
    rw [honly.vnodes] at hother
    rw [honly.svIno]
    exact h.alive other hother
  dead := h.dead
  clean := by
    intro other hother hdirty
    rw [honly.vnodes] at hother
    rw [honly.svIno]
    by_cases heq : other = sv
    · subst heq
      exact hclean hdirty
    · have hlive := h.alive other hother
      have hne : (fs.vnode other).svIno ≠ (fs.vnode sv).svIno := by
        intro hsame
        exact heq (h.distinct other hother sv hsv hsame)
      rw [honly.vnode other heq] at hdirty ⊢
      rw [← h.clean other hother hdirty]
      exact honly.disk _ .inode hlive hne (h.ne_zero hlive)
  holding := hholding

/-- The vnode at `sv` has the inode `ino`. -/
structure Loaded (fs : SfsFs) (sv ino : Nat) : Prop where
  mem : sv ∈ fs.sfsVnodes
  ino : (fs.vnode sv).svIno = ino

theorem Loaded.only (hloaded : Loaded fs sv ino) (honly : OnlyFile live sv fs fs') :
    Loaded fs' sv ino := by
  refine ⟨?_, honly.ino.trans hloaded.ino⟩
  rw [honly.vnodes]
  exact hloaded.mem

theorem Loaded.alive (hloaded : Loaded fs sv ino) (h : Files n live fs) : live ino = true := by
  rw [← hloaded.ino]
  exact h.alive sv hloaded.mem

theorem Loaded.inode (hloaded : Loaded fs sv ino) (h : Files n live fs) :
    fs.inode ino = (fs.vnode sv).svI := by
  rw [← hloaded.ino]
  exact h.inode_eq hloaded.mem

/-- The length of the file of a vnode. -/
def SfsFs.size (fs : SfsFs) (sv : Nat) : Nat := (fs.vnode sv).svI.get sfiSize

/-- The file system is in order, only the file of `sv` has changed, and this is what it
has become. -/
structure Leaves (n : Nat) (live : Nat → Bool) (sv ino : Nat) (fs : SfsFs)
    (file : Nat → Block) (size : Nat) (fs' : SfsFs) : Prop where
  files : Files n live fs'
  only : OnlyFile live sv fs fs'
  file : fs'.file ino = file
  size : fs'.size sv = size

theorem Leaves.refl (h : Files n live fs) (sv ino : Nat) :
    Leaves n live sv ino fs (fs.file ino) (fs.size sv) fs :=
  ⟨h, .refl live sv fs, rfl, rfl⟩

theorem Leaves.trans {file file' : Nat → Block} {size size' : Nat}
    (hfirst : Leaves n live sv ino fs file size fs')
    (hsecond : Leaves n live sv ino fs' file' size' fs'') :
    Leaves n live sv ino fs file' size' fs'' :=
  ⟨hsecond.files, hfirst.only.trans hsecond.only hfirst.files.dead, hsecond.file, hsecond.size⟩

end OS161.Sfs
