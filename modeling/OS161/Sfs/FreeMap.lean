import OS161.Sfs.Io
import OS161.Sfs.Mksfs

namespace OS161.Sfs

open OS161.Data
open OS161.Kern
open OS161.Lib
open OS161.Vfs

/-! The free map that `mksfs` writes is the one that a mount reads. -/

/-- The blocks that no file may have: the superblock, the root's inode, the map and what
is past the end of the disk. -/
def Reserved (n i : Nat) : Prop :=
  i = 0 ∨ i = 1 ∨ 2 ≤ i ∧ i < 2 + sfsBitblocks n ∨ n ≤ i

variable {n : Nat}

/-- The sizes for a file system that `mksfs` can make. -/
structure Sized (n : Nat) : Prop where
  low : 3 ≤ n
  high : n ≤ 32 * 4096

theorem bitmapsize_eq (n : Nat) : sfsBitmapsize n = sfsBitblocks n * 4096 := by
  unfold sfsBitblocks sfsBitmapsize
  omega

/-- The sizes for which that of the free map does not wrap around. -/
structure Covered (n : Nat) : Prop where
  low : 3 ≤ n
  high : n + 4096 ≤ 2 ^ 32

theorem Sized.covered (hn : Sized n) : Covered n := by
  have hhigh := hn.high
  exact ⟨hn.low, by omega⟩

theorem Covered.bitmapsize (hn : Covered n) : sfsBitmapsize n = (n + 4095) / 4096 * 4096 := by
  have hhigh := hn.high
  rw [sfsBitmapsize, Nat.mod_eq_of_lt (by omega)]

theorem Covered.covers (hn : Covered n) : n ≤ sfsBitmapsize n := by
  rw [hn.bitmapsize]
  omega

theorem Sized.blocks (hn : Sized n) : sfsBitblocks n ≤ 32 := by
  have hhigh := hn.high
  rw [sfsBitblocks, hn.covered.bitmapsize]
  omega

/-- The map lies inside the disk. -/
theorem Sized.map_lt (hn : Sized n) : 2 + sfsBitblocks n ≤ n := by
  have hlow := hn.low
  rw [sfsBitblocks, hn.covered.bitmapsize]
  omega

/-! Writing the map. -/

namespace Mksfs

variable {s : Mksfs}

/-- The program with the bits of a range set. -/
structure Allocated (s : Mksfs) (low high : Nat) (s' : Mksfs) : Prop where
  disk : s'.disk = s.disk
  bits : ∀ j, s'.bitbuf.bit j = true ↔ s.bitbuf.bit j = true ∨ low ≤ j ∧ j < high

theorem doallocbit_returns (hclear : s.bitbuf.bit bit = false) :
    Prog.Returns (doallocbit bit) (fun _ s' => Allocated s bit (bit + 1) s') s := by
  have hmod : bit % 8 < 8 := Nat.mod_lt _ (by decide)
  have hplace : bit / 8 * 8 + bit % 8 = bit := Nat.div_add_mod' bit 8
  simp only [doallocbit, ↓Prog.wp_bind, ↓Prog.wp_get, ↓Prog.wp_assert, ↓Prog.wp_modify]
  rw [if_pos ((and_mask_eq_zero hmod).mpr hclear)]
  refine ⟨rfl, ?_⟩
  intro j
  rw [BitWords.bit_orMask _ hmod, hplace, Bool.or_eq_true, decide_eq_true_eq]
  apply or_congr_right
  omega

theorem allocRange_returns {first : Nat} (count low : Nat)
    (hclear : ∀ j, low ≤ j → j < low + count → s.bitbuf.bit j = false) (f : Nat → Nat)
    (hf : ∀ i, f (first + i) = low + i) :
    Prog.Returns (Prog.forFrom (fun i _ => doallocbit (f i)) count first ())
      (fun _ s' => Allocated s low (low + count) s') s := by
  have hstart : Allocated s low (low + (first - first)) s := by
    refine ⟨rfl, fun j => ?_⟩
    rw [Nat.sub_self, or_iff_left]
    omega
  refine Prog.wp_mono (Prog.wp_forFrom
    (fun i _ s' => Allocated s low (low + (i - first)) s') ?_ hstart) ?_ (fun _ _ h => h)
    (fun _ h => h)
  · intro i _ s' hle hlt halloc
    have hbit : f i = low + (i - first) := by
      rw [← hf, Nat.add_sub_cancel' hle]
    rw [hbit]
    refine Prog.Returns.mono (doallocbit_returns ?_) ?_
    · rw [← Bool.not_eq_true, halloc.bits, hclear _ (by omega) (by omega)]
      rintro (hold | hrange)
      · cases hold
      · omega
    · intro _ s'' hstep
      refine ⟨hstep.disk.trans halloc.disk, ?_⟩
      intro j
      rw [hstep.bits, halloc.bits, or_assoc]
      apply or_congr_right
      omega
  · intro _ s' halloc
    rw [Nat.add_sub_cancel_left] at halloc
    exact halloc

/-- The disk with the blocks of the map before `count` written. -/
def mapped (disk : Nat → Block) (bitbuf : BitWords 8) (count : Nat) : Nat → Block := fun b =>
  if 2 ≤ b ∧ b < 2 + count then mapBlock bitbuf (b - 2) else disk b

theorem writeMap_returns (count : Nat) (s : Mksfs) :
    Prog.Returns (Prog.forFrom (fun i _ => writeMapBlock i) count 0 ())
      (fun _ s' => s' = ⟨mapped s.disk s.bitbuf count, s.bitbuf⟩) s := by
  have hstart : s = ⟨mapped s.disk s.bitbuf 0, s.bitbuf⟩ := by
    have hdisk : mapped s.disk s.bitbuf 0 = s.disk := by
      funext b
      rw [mapped, if_neg (by omega)]
    rw [hdisk]
  refine Prog.wp_mono (Prog.wp_forFrom
    (fun i _ s' => s' = ⟨mapped s.disk s.bitbuf i, s.bitbuf⟩) ?_ hstart) ?_ (fun _ _ h => h)
    (fun _ h => h)
  · rintro i _ _ - - rfl
    have hdisk : Function.update (mapped s.disk s.bitbuf i) (2 + i) (mapBlock s.bitbuf i) =
        mapped s.disk s.bitbuf (i + 1) := by
      funext b
      by_cases heq : b = 2 + i
      · rw [heq, Function.update_self, mapped, if_pos (by omega), Nat.add_sub_cancel_left]
      · rw [Function.update_of_ne heq, mapped, mapped]
        apply if_congr _ rfl rfl
        omega
    show (⟨Function.update (mapped s.disk s.bitbuf i) (2 + i) (mapBlock s.bitbuf i),
      s.bitbuf⟩ : Mksfs) = _
    rw [hdisk]
  · rintro _ _ rfl
    rw [Nat.zero_add]

/-- What `mksfs` leaves on the disk. -/
structure Image (n : Nat) (volname : List Byte) (disk : Nat → Block) (bitbuf : BitWords 8) :
    Prop where
  super : disk 0 = superBlock volname n
  map : ∀ j < sfsBitblocks n, disk (2 + j) = mapBlock bitbuf j
  bits : ∀ j < sfsBitmapsize n, bitbuf.bit j = true ↔ Reserved n j

theorem mksfs_returns (hn : Sized n) {volname : List Byte} (hvolname : volname.length < 32)
    (disk : Nat → Block) :
    Prog.Returns (mksfs volname n) (fun _ s => Image n volname s.disk s.bitbuf) (start disk) := by
  have hcovers := hn.covered.covers
  have hmap := hn.map_lt
  have hblocks := hn.blocks
  have hnone (j : Nat) : BitWords.bit (fun _ => 0#8) j = false := by
    simp [BitWords.bit]
  simp only [mksfs, writesuper, writerootdir, diskwrite, ↓Prog.wp_bind, ↓Prog.wp_when,
    ↓Prog.wp_fail, ↓Prog.wp_modify, start]
  rw [if_neg (by omega)]
  simp only [writebitmap, ↓Prog.wp_bind, ↓Prog.wp_when, ↓Prog.wp_fail]
  rw [if_neg (by omega)]
  refine Prog.Returns.mono (doallocbit_returns (hnone 0)) ?_
  intro _ s₀ h₀
  have hbits₀ (j : Nat) : s₀.bitbuf.bit j = true ↔ j < 1 := by
    have hzero := hnone j
    rw [h₀.bits]
    show BitWords.bit (fun _ => 0#8) j = true ∨ _ ↔ _
    rw [hzero]
    simp
  have hclear₁ : s₀.bitbuf.bit 1 = false := by
    rw [← Bool.not_eq_true, hbits₀]
    omega
  refine Prog.Returns.mono (doallocbit_returns hclear₁) ?_
  intro _ s₁ h₁
  have hbits₁ (j : Nat) : s₁.bitbuf.bit j = true ↔ j < 2 := by
    rw [h₁.bits, hbits₀]
    omega
  refine Prog.Returns.mono (@allocRange_returns _ 0 (sfsBitblocks n) 2 ?_ (fun i => 2 + i) ?_) ?_
  · intro j hlow _
    rw [← Bool.not_eq_true, hbits₁]
    omega
  · intro i
    rw [Nat.zero_add]
  intro _ s₂ h₂
  have hbits₂ (j : Nat) : s₂.bitbuf.bit j = true ↔ j < 2 + sfsBitblocks n := by
    rw [h₂.bits, hbits₁]
    omega
  refine Prog.Returns.mono (allocRange_returns (sfsBitmapsize n - n) n ?_ (fun i => i)
    (fun _ => rfl)) ?_
  · intro j hlow _
    rw [← Bool.not_eq_true, hbits₂]
    omega
  intro _ s₃ h₃
  refine Prog.Returns.mono (writeMap_returns (sfsBitblocks n) s₃) ?_
  rintro _ _ rfl
  refine ⟨?_, ?_, ?_⟩
  · have hdisk : s₃.disk 0 = superBlock volname n := by
      rw [h₃.disk, h₂.disk, h₁.disk, h₀.disk]
      simp
    show mapped s₃.disk s₃.bitbuf (sfsBitblocks n) 0 = superBlock volname n
    rw [mapped, if_neg (by omega), hdisk]
  · intro j hj
    show mapped s₃.disk s₃.bitbuf (sfsBitblocks n) (2 + j) = mapBlock s₃.bitbuf j
    rw [mapped, if_pos (by omega), Nat.add_sub_cancel_left]
  · intro j hj
    show s₃.bitbuf.bit j = true ↔ Reserved n j
    rw [h₃.bits, hbits₂, Reserved]
    omega

theorem get_superBlock (volname : List Byte) (n : Nat) (field : Bytes.Field)
    (hfield : field.off + field.len ≤ 8) :
    (superBlock volname n).get field =
      (((Record.zeros : Block).set spMagic SFS_MAGIC).set spNblocksField n).get field := by
  rw [superBlock, Record.get_ofBytes (by omega)]
  apply Bytes.number_congr
  intro k _ hlt
  exact Bytes.splice_of_lt (by omega) volname

theorem magic_superBlock (volname : List Byte) (n : Nat) :
    (superBlock volname n).get spMagic = SFS_MAGIC := by
  rw [get_superBlock _ _ _ (by decide), Record.get_set_of_disjoint _ _ (by decide) (by decide),
    Record.get_set _ (by decide) (by decide)]

theorem nblocks_superBlock (volname : List Byte) (hn : n < 2 ^ 32) :
    (superBlock volname n).get spNblocksField = n := by
  rw [get_superBlock _ _ _ (by decide), Record.get_set _ (by decide) hn]

end Mksfs

/-! Reading the map. -/

theorem get_endVolname (super : Block) (field : Bytes.Field)
    (hfield : field.off + field.len ≤ 39) : (endVolname super).get field = super.get field := by
  rw [endVolname, Record.get_ofBytes (by omega)]
  apply Bytes.number_congr
  intro k _ hlt
  exact Bytes.splice_of_lt (by omega) [0]

/-- The bitmap with the blocks of the map before `count` read from the disk. -/
def loadedMap (disk : Nat → Block) (v : BitWords 8) (count : Nat) : BitWords 8 := fun ix =>
  if ix < count * 512 then (disk (2 + ix / 512)).bytes (ix % 512) else v ix

variable {fs : SfsFs}

theorem putMapBlock_loadedMap (disk : Nat → Block) (v : BitWords 8) (j : Nat) :
    putMapBlock (loadedMap disk v j) j (disk (2 + j)) = loadedMap disk v (j + 1) := by
  funext ix
  unfold putMapBlock loadedMap
  by_cases hblock : j * 512 ≤ ix ∧ ix < j * 512 + 512
  · have hdiv : ix / 512 = j := by
      omega
    have hmod : ix % 512 = ix - j * 512 := by
      omega
    rw [if_pos hblock, if_pos (by omega), hdiv, hmod]
  · rw [if_neg hblock]
    apply if_congr _ rfl rfl
    omega

/-- The file system with another bitmap in memory. -/
def SfsFs.withMap (fs : SfsFs) (v : BitWords 8) : SfsFs :=
  { fs with sfsFreemap := { fs.sfsFreemap with v := v } }

theorem sfsMapio_read (hquiet : fs.mediaErrors = [])
    (hdisk : 2 + sfsBitblocks fs.spNblocks ≤ fs.dBlocks) :
    Prog.Returns (sfsMapio .UIO_READ) (fun _ fs' => fs' =
      fs.withMap (loadedMap fs.disk fs.sfsFreemap.v (sfsBitblocks fs.spNblocks))) fs := by
  have hstart : fs = fs.withMap (loadedMap fs.disk fs.sfsFreemap.v 0) := by
    have hnone : loadedMap fs.disk fs.sfsFreemap.v 0 = fs.sfsFreemap.v := by
      funext ix
      rw [loadedMap, if_neg (by omega)]
    rw [hnone]
    rfl
  simp only [sfsMapio, ↓Prog.wp_bind, ↓Prog.wp_get]
  refine Prog.wp_mono (Prog.wp_forFrom
    (fun j _ fs' => fs' = fs.withMap (loadedMap fs.disk fs.sfsFreemap.v j)) ?_ hstart) ?_
    (fun _ _ h => h) (fun _ h => h)
  · rintro j _ _ - hlt rfl
    simp only [mapioBlock, ↓Prog.wp_bind, ↓Prog.wp_get]
    apply @wp_sfsRblock (fs.withMap (loadedMap fs.disk fs.sfsFreemap.v j)) (2 + j) _ _ _ _
      (show 2 + j < fs.dBlocks by omega) hquiet
    show fs.withMap (putMapBlock (loadedMap fs.disk fs.sfsFreemap.v j) j (fs.disk (2 + j))) = _
    rw [putMapBlock_loadedMap]
  · rintro _ _ rfl
    rw [Nat.zero_add]

/-- A mounted file system that holds the map of a fresh image. -/
structure FreshMap (n : Nat) (fs : SfsFs) : Prop where
  nblocks : fs.spNblocks = n
  device : n ≤ fs.dBlocks
  nbits : fs.sfsFreemap.nbits = sfsBitmapsize n
  marked : ∀ i < sfsBitmapsize n, fs.sfsFreemap.bitmapIsset i = true ↔ Reserved n i

/-- Every allocation of the mount finds memory. -/
def MountMemory.enough : MountMemory := ⟨true, true, true⟩

theorem bit_loadedMap {disk : Nat → Block} {bitbuf : BitWords 8} {count : Nat}
    (hmap : ∀ j < count, disk (2 + j) = mapBlock bitbuf j) (v : BitWords 8)
    (hi : i < count * 4096) : (loadedMap disk v count).bit i = bitbuf.bit i := by
  rw [BitWords.bit, BitWords.bit, loadedMap, if_pos (by omega), hmap _ (by omega), mapBlock,
    Record.bytes_ofBytes (by omega), Nat.div_add_mod']

theorem sfsDomount_returns (hn : Sized n) {volname : List Byte} {bitbuf : BitWords 8}
    (himage : Mksfs.Image n volname fs.disk bitbuf) (hdevice : n ≤ fs.dBlocks)
    (hquiet : fs.mediaErrors = []) :
    Prog.Returns (sfsDomount 512 .enough) (fun _ fs' => FreshMap n fs') fs := by
  have hhigh := hn.high
  have hmap := hn.map_lt
  have hnblocks : (endVolname (fs.disk 0)).get spNblocksField = n := by
    rw [get_endVolname _ _ (by decide), himage.super, Mksfs.nblocks_superBlock _ (by omega)]
  simp only [sfsDomount, ↓Prog.wp_bind, ↓Prog.wp_when, ↓Prog.wp_fail, ↓Prog.wp_get]
  rw [if_neg (by decide), if_neg (by decide), if_neg (by decide)]
  refine @wp_sfsRblock fs 0 _ _ _ _ (by omega) hquiet ?_
  rw [himage.super, Mksfs.magic_superBlock, ← himage.super, if_neg (not_not.mpr rfl),
    if_neg (by decide)]
  simp only [↓Prog.wp_modify, hnblocks]
  refine Prog.Returns.mono (@sfsMapio_read { fs with
    sfsVnodes := []
    sfsSuper := endVolname (fs.disk 0)
    sfsFreemap := Bitmap.bitmapCreate (sfsBitmapsize n) } hquiet ?_) ?_
  · show 2 + sfsBitblocks ((endVolname (fs.disk 0)).get spNblocksField) ≤ fs.dBlocks
    rw [hnblocks]
    omega
  · rintro _ _ rfl
    refine ⟨hnblocks, hdevice, rfl, ?_⟩
    intro i hi
    show Bitmap.bitmapIsset ⟨sfsBitmapsize n, loadedMap fs.disk _
      (sfsBitblocks ((endVolname (fs.disk 0)).get spNblocksField))⟩ i = true ↔ Reserved n i
    rw [bitmapsize_eq] at hi
    rw [Bitmap.bitmapIsset_eq, hnblocks, bit_loadedMap himage.map _ hi]
    rw [← bitmapsize_eq] at hi
    exact himage.bits i hi

/-! Allocation. -/

/-- The blocks that calls of `sfs_balloc` hand out, the last one first.  Between the calls
the free map, the superblock and the device stay as they are. -/
inductive BallocRun (fs : SfsFs) : List Nat → SfsFs → Prop where
  | none : BallocRun fs [] fs
  | block {fs' fs'' : SfsFs} (hrun : BallocRun fs blocks fs')
      (hdone : sfsBalloc fs' = .ok block fs'') : BallocRun fs (block :: blocks) fs''
  | failed {fs' fs'' : SfsFs} (hrun : BallocRun fs blocks fs')
      (hfailed : sfsBalloc fs' = .error code fs'') : BallocRun fs blocks fs''
  | elsewhere {fs' fs'' : SfsFs} (hrun : BallocRun fs blocks fs')
      (hfreemap : fs''.sfsFreemap = fs'.sfsFreemap) (hsuper : fs''.sfsSuper = fs'.sfsSuper)
      (hdevice : fs''.dBlocks = fs'.dBlocks) : BallocRun fs blocks fs''

/-- What keeps `sfs_balloc` away from the reserved blocks. -/
structure Guarded (n : Nat) (fs : SfsFs) : Prop where
  nblocks : fs.spNblocks = n
  device : n ≤ fs.dBlocks
  nbits : fs.sfsFreemap.nbits = sfsBitmapsize n
  marked : ∀ i < sfsBitmapsize n, Reserved n i → fs.sfsFreemap.bitmapIsset i = true

theorem Guarded.congr {fs' : SfsFs} (hguarded : Guarded n fs)
    (hsuper : fs'.sfsSuper = fs.sfsSuper) (hdevice : fs'.dBlocks = fs.dBlocks)
    (hnbits : fs'.sfsFreemap.nbits = fs.sfsFreemap.nbits)
    (hmarked : ∀ i, fs.sfsFreemap.bitmapIsset i = true → fs'.sfsFreemap.bitmapIsset i = true) :
    Guarded n fs' := by
  refine ⟨?_, ?_, hnbits.trans hguarded.nbits, ?_⟩
  · rw [SfsFs.spNblocks, hsuper]
    exact hguarded.nblocks
  · rw [hdevice]
    exact hguarded.device
  · intro i hi hreserved
    exact hmarked i (hguarded.marked i hi hreserved)

/-- The file system with one more block in use. -/
def SfsFs.withMark (fs : SfsFs) (block : Nat) : SfsFs :=
  { fs with sfsFreemap := fs.sfsFreemap.mark block, sfsFreemapdirty := true }

theorem sfsBalloc_guarded (hguarded : Guarded n fs) :
    Prog.wp sfsBalloc (fun block fs' => ¬ Reserved n block ∧ Guarded n fs')
      (fun _ fs' => Guarded n fs') (fun _ => True) fs := by
  have hdevice := hguarded.device
  simp only [sfsBalloc, onFreemap, ↓Prog.wp_bind, ↓Prog.wp_zoom]
  refine Prog.wp_mono (Bitmap.bitmapAlloc_wp fs.sfsFreemap) ?_ ?_ (fun _ _ => trivial)
  · rintro block _ ⟨hlowest, hlt, rfl⟩
    simp only [↓Prog.wp_modify, ↓Prog.wp_get, ↓Prog.wp_assert]
    split
    case isFalse => trivial
    case isTrue hrange =>
    have hfree : ¬ Reserved n block := by
      intro hreserved
      have hset := hguarded.marked block (by rw [← hguarded.nbits]; exact hlt) hreserved
      rw [hlowest.clear] at hset
      cases hset
    have hblock : block < fs.dBlocks := by
      have hnblocks : block < fs.spNblocks := hrange
      rw [hguarded.nblocks] at hnblocks
      omega
    refine @wp_sfsWblock (fs.withMark block) block _ _ _ Record.zeros hblock ⟨hfree, ?_⟩
    have hmark : Guarded n (fs.withMark block) := by
      refine hguarded.congr rfl rfl rfl ?_
      intro i hset
      rw [SfsFs.withMark, Bitmap.isset_mark, hset, Bool.true_or]
    unfold SfsFs.written
    split
    · exact hmark.congr rfl rfl rfl (fun _ h => h)
    · exact hmark.congr rfl rfl rfl (fun _ h => h)
  · rintro code _ ⟨-, rfl, -⟩
    exact hguarded

theorem Guarded.run {blocks : List Nat} {fs' : SfsFs} (hguarded : Guarded n fs)
    (hrun : BallocRun fs blocks fs') :
    Guarded n fs' ∧ ∀ block ∈ blocks, ¬ Reserved n block := by
  induction hrun with
  | none => exact ⟨hguarded, by simp⟩
  | block _ hdone ih =>
      obtain ⟨hbefore, hblocks⟩ := ih
      obtain ⟨hfree, hafter⟩ := (sfsBalloc_guarded hbefore).post_of_ok hdone
      refine ⟨hafter, ?_⟩
      intro b hb
      cases hb with
      | head => exact hfree
      | tail _ hold => exact hblocks b hold
  | failed _ hfailed ih =>
      obtain ⟨hbefore, hblocks⟩ := ih
      exact ⟨(sfsBalloc_guarded hbefore).fails_of_error hfailed, hblocks⟩
  | elsewhere _ hfreemap hsuper hdevice ih =>
      obtain ⟨hbefore, hblocks⟩ := ih
      refine ⟨hbefore.congr hsuper hdevice ?_ ?_, hblocks⟩
      · rw [hfreemap]
      · rw [hfreemap]
        exact fun _ h => h

/-- `mksfs` and the mount agree on the free map, and `sfs_balloc` hands out none of the
blocks reserved in it. -/
theorem mksfs_mount_agree {volname : List Byte} (hlow : 3 ≤ n) (hhigh : n ≤ 32 * 4096)
    (hvolname : volname.length < 32) (disk : Nat → Block) (fs : SfsFs) (hdevice : n ≤ fs.dBlocks)
    (hquiet : fs.mediaErrors = []) :
    ∃ image, Mksfs.mksfs volname n (Mksfs.start disk) = .ok () image ∧
      ∃ fs', sfsDomount 512 .enough { fs with disk := image.disk } = .ok () fs' ∧
        fs'.sfsFreemap.nbits = sfsBitmapsize n ∧
        (∀ i < sfsBitmapsize n, fs'.sfsFreemap.bitmapIsset i = true ↔ Reserved n i) ∧
        ∀ blocks fs'', BallocRun fs' blocks fs'' → ∀ block ∈ blocks, ¬ Reserved n block := by
  have hn : Sized n := ⟨hlow, hhigh⟩
  obtain ⟨_, image, hmksfs, himage⟩ := (Mksfs.mksfs_returns hn hvolname disk).exists_ok
  refine ⟨image, hmksfs, ?_⟩
  have hmount := @sfsDomount_returns n { fs with disk := image.disk } hn _ _ himage hdevice hquiet
  obtain ⟨_, fs', hdone, hfresh⟩ := hmount.exists_ok
  refine ⟨fs', hdone, hfresh.nbits, hfresh.marked, ?_⟩
  intro blocks fs'' hrun
  have hguarded : Guarded n fs' := by
    refine ⟨hfresh.nblocks, hfresh.device, hfresh.nbits, ?_⟩
    intro i hi hreserved
    exact (hfresh.marked i hi).mpr hreserved
  exact (hguarded.run hrun).2

/-- A disk of five blocks that nothing was written to. -/
private def blank : SfsFs where
  disk _ := Record.zeros
  dBlocks := 5
  mediaErrors := []
  sfsSuper := Record.zeros
  sfsSuperdirty := false
  sfsVnodes := []
  vnode _ := ⟨.sfsFileops, 0, Record.zeros, 0, false⟩
  sfsFreemap := Bitmap.bitmapCreate 0
  sfsFreemapdirty := false

theorem mksfs_mount_agree_five_blocks :
    ∃ image, Mksfs.mksfs [118] 5 (Mksfs.start blank.disk) = .ok () image ∧
      ∃ fs', sfsDomount 512 .enough { blank with disk := image.disk } = .ok () fs' ∧
        fs'.sfsFreemap.nbits = sfsBitmapsize 5 ∧
        (∀ i < sfsBitmapsize 5, fs'.sfsFreemap.bitmapIsset i = true ↔ Reserved 5 i) ∧
        ∀ blocks fs'', BallocRun fs' blocks fs'' → ∀ block ∈ blocks, ¬ Reserved 5 block :=
  mksfs_mount_agree (by decide) (by decide) (by decide) blank.disk blank (by decide) rfl

end OS161.Sfs
