import OS161.Data.Seq
import OS161.Sfs.Files

namespace OS161.Sfs

open OS161.Data
open OS161.Kern
open OS161.Lib
open OS161.Vfs

/-! What `sfs_bmap` does to a file. -/

variable {fs fs' fs'' : SfsFs} {live : Nat → Bool} {sv ino n b k : Nat}

/-! Single changes. -/

/-- The file system with another inode in the vnode at `sv`. -/
def SfsFs.withInode (fs : SfsFs) (sv : Nat) (inode : Block) : SfsFs :=
  { fs with
    vnode := Function.update fs.vnode sv { fs.vnode sv with svI := inode, svDirty := true } }

theorem wp_setInode {post : Unit → SfsFs → Prop} {fails : Errno → SfsFs → Prop}
    {bad : Fault → Prop} (sv : Nat) (field : Bytes.Field) (x : Nat) :
    Prog.wp (setInode sv field x) post fails bad fs ↔
      post () (fs.withInode sv ((fs.vnode sv).svI.set field x)) := Iff.rfl

@[simp] theorem vnode_withInode (fs : SfsFs) (sv : Nat) (inode : Block) :
    (fs.withInode sv inode).vnode sv =
      { fs.vnode sv with svI := inode, svDirty := true } :=
  Function.update_self _ _ _

theorem vnode_withInode_of_ne (hother : other ≠ sv) (inode : Block) :
    (fs.withInode sv inode).vnode other = fs.vnode other :=
  Function.update_of_ne hother _ _

theorem onlyFile_withInode {inode : Block}
    (htype : inode.get sfiType = (fs.vnode sv).svI.get sfiType)
    (hlinkcount : inode.get sfiLinkcount = (fs.vnode sv).svI.get sfiLinkcount) :
    OnlyFile live sv fs (fs.withInode sv inode) where
  vnodes := rfl
  vnode other hother := vnode_withInode_of_ne hother inode
  ino := by rw [vnode_withInode]
  ops := by rw [vnode_withInode]
  refcount := by rw [vnode_withInode]
  type := by rw [vnode_withInode]; exact htype
  linkcount := by rw [vnode_withInode]; exact hlinkcount
  disk _ _ _ _ _ := rfl

theorem onlyFile_withBlock (data : Block)
    (hapart : ∀ ino slot, live ino = true → ino ≠ (fs.vnode sv).svIno →
      fs.blockAt ino slot ≠ 0 → fs.blockAt ino slot ≠ b) :
    OnlyFile live sv fs (fs.withBlock b data) where
  vnodes := rfl
  vnode _ _ := rfl
  ino := rfl
  ops := rfl
  refcount := rfl
  type := rfl
  linkcount := rfl
  disk ino slot hlive hne hblock := Function.update_of_ne (hapart ino slot hlive hne hblock) _ _

/-- The other files do not hold a block of this file. -/
theorem Files.apart_own (h : Files n live fs) (hlive : live ino = true) {slot slot' : Slot}
    {ino' : Nat} (hlive' : live ino' = true) (hne : ino' ≠ ino)
    (hblock : fs.blockAt ino' slot' ≠ 0) : fs.blockAt ino' slot' ≠ fs.blockAt ino slot := by
  intro hsame
  have hplace := h.holding.apart ⟨ino', slot'⟩ ⟨ino, slot⟩
    (by rw [held_of_live hlive', held_of_live hlive, hsame])
    (by rw [held_of_live hlive']; exact hblock)
  exact hne (congrArg Place.ino hplace)

theorem Files.slot_eq (h : Files n live fs) (hlive : live ino = true) {slot slot' : Slot}
    (hsame : fs.blockAt ino slot = fs.blockAt ino slot') (hblock : fs.blockAt ino slot ≠ 0) :
    slot = slot' := by
  have hplace := h.holding.apart ⟨ino, slot⟩ ⟨ino, slot'⟩
    (by rw [held_of_live hlive, held_of_live hlive, hsame])
    (by rw [held_of_live hlive]; exact hblock)
  exact congrArg Place.slot hplace

/-! Space. -/

/-- How many blocks the free map has to give. -/
def SfsFs.freeBlocks (fs : SfsFs) : Nat :=
  Nat.count (fun b => fs.sfsFreemap.bitmapIsset b = false) fs.sfsFreemap.nbits

/-- How many blocks must be allocated before block `k` of the file can be written. -/
def SfsFs.lacks (fs : SfsFs) (ino k : Nat) : Nat :=
  if fs.blockAt ino (.data k) ≠ 0 then 0
  else if k < 15 ∨ fs.blockAt ino .indirect ≠ 0 then 1 else 2

/-- What is left of the free map when there are not blocks enough: the indirect block stays
allocated if there was one for it. -/
structure NoSpace (fs : SfsFs) (ino k : Nat) (freemap : Bitmap) : Prop where
  short : fs.freeBlocks < fs.lacks ino k
  same : fs.freeBlocks = 0 → freemap = fs.sfsFreemap
  leaked : fs.freeBlocks ≠ 0 →
    ∃ b, fs.sfsFreemap.bitmapIsset b = false ∧ freemap.bitmapIsset b = true

theorem freeBlocks_eq_zero
    (hall : ∀ b < fs.sfsFreemap.nbits, fs.sfsFreemap.bitmapIsset b = true) :
    fs.freeBlocks = 0 := by
  apply Nat.count_of_forall_not
  intro b hb hfree
  rw [hall b hb] at hfree
  cases hfree

/-- A block is marked that was free. -/
theorem freeBlocks_mark (hfreemap : fs'.sfsFreemap = fs.sfsFreemap.mark b)
    (hclear : fs.sfsFreemap.bitmapIsset b = false) (hb : b < fs.sfsFreemap.nbits) :
    fs.freeBlocks = fs'.freeBlocks + 1 := by
  have hsame : ∀ i, i ≠ b → (fs'.sfsFreemap.bitmapIsset i = false ↔
      fs.sfsFreemap.bitmapIsset i = false) := by
    intro i hi
    rw [hfreemap, Bitmap.isset_mark, decide_eq_false hi, Bool.or_false]
  have hset : fs'.sfsFreemap.bitmapIsset b = true := by
    rw [hfreemap, Bitmap.isset_mark, decide_eq_true rfl, Bool.or_true]
  have hnbits : fs'.sfsFreemap.nbits = fs.sfsFreemap.nbits := by
    rw [hfreemap]
    rfl
  have hcount := count_change hsame hb
  rw [if_pos hclear, if_neg (by simp [hset])] at hcount
  unfold SfsFs.freeBlocks
  rw [hnbits]
  omega

/-! Allocation. -/

/-- The file system with a block allocated and cleared. -/
def SfsFs.withFresh (fs : SfsFs) (b : Nat) : SfsFs := (fs.withMark b).withBlock b Record.zeros

theorem written_of_quiet (hquiet : fs.mediaErrors = []) (block : Nat) (data : Block) :
    fs.written block data = fs.withBlock block data := by
  have hafter : fs.afterIo = fs := by
    cases fs
    cases hquiet
    rfl
  rw [SfsFs.written, SfsFs.nextError, hquiet, if_neg (by decide), hafter]

theorem sfsBalloc_wp (h : Files n live fs) :
    Prog.wp sfsBalloc
      (fun b fs' => fs' = fs.withFresh b ∧ ¬ Reserved n b ∧
        fs.sfsFreemap.bitmapIsset b = false)
      (fun code fs' => code = .ENOSPC ∧ fs' = fs ∧ fs.freeBlocks = 0) (fun _ => False) fs := by
  have hdevice := h.guarded.device
  have hbits : fs.sfsFreemap.words * 8 = fs.sfsFreemap.nbits := by
    rw [Bitmap.words, h.guarded.nbits, bitmapsize_eq]
    omega
  simp only [sfsBalloc, onFreemap, ↓Prog.wp_bind, ↓Prog.wp_zoom]
  refine Prog.wp_mono (Bitmap.bitmapAlloc_wp fs.sfsFreemap) ?_ ?_ ?_
  · rintro b _ ⟨hlowest, hlt, hmark⟩
    subst hmark
    have hfree : ¬ Reserved n b := by
      intro hreserved
      have hset := h.guarded.marked b (by rw [← h.guarded.nbits]; exact hlt) hreserved
      rw [hlowest.clear] at hset
      cases hset
    have hb : b < n := by
      unfold Reserved at hfree
      omega
    have hrange : b < fs.spNblocks := by
      rw [h.guarded.nblocks]
      exact hb
    simp only [↓Prog.wp_modify, ↓Prog.wp_get, ↓Prog.wp_assert]
    refine (if_pos hrange).mpr ?_
    refine @wp_sfsWblock (fs.withMark b) b _ _ _ Record.zeros (by show b < fs.dBlocks; omega) ?_
    refine ⟨?_, hfree, hlowest.clear⟩
    exact @written_of_quiet (fs.withMark b) h.quiet b Record.zeros
  · rintro code _ ⟨hcode, hsame, hall⟩
    subst hsame
    refine ⟨hcode, rfl, freeBlocks_eq_zero ?_⟩
    intro b hb
    exact hall b (by omega)
  · rintro reason ⟨_, index, _, hover, hbelow⟩
    omega

/-- A block that was just allocated. -/
structure Fresh (n : Nat) (live : Nat → Bool) (fs : SfsFs) (b : Nat) : Prop where
  isset : fs.sfsFreemap.bitmapIsset b = true
  unreserved : ¬ Reserved n b
  unheld : ∀ p, fs.held live p ≠ b
  zeros : fs.disk b = Record.zeros

theorem Fresh.ne_zero (hfresh : Fresh n live fs b) : b ≠ 0 := by
  intro hzero
  exact hfresh.unreserved (Or.inl hzero)

theorem Fresh.lt (hfresh : Fresh n live fs b) (hn : Covered n) : b < 2 ^ 32 := by
  have hunreserved := hfresh.unreserved
  have hhigh := hn.high
  unfold Reserved at hunreserved
  omega

/-- The inode of the file stays, and so do the blocks it holds. -/
theorem OnlyFile.same_own (honly : OnlyFile live sv fs fs') (h : Files n live fs)
    (hloaded : Loaded fs sv ino) (hinode : (fs'.vnode sv).svI = (fs.vnode sv).svI)
    (hsame : ∀ slot, fs.blockAt ino slot ≠ 0 →
      fs'.disk (fs.blockAt ino slot) = fs.disk (fs.blockAt ino slot)) :
    (∀ slot, fs'.blockAt ino slot = fs.blockAt ino slot) ∧ fs'.file ino = fs.file ino := by
  have hino : fs'.inode ino = fs.inode ino := by
    rw [hloaded.inode h, ← hinode, ← hloaded.ino]
    exact honly.inode_own h hloaded.mem
  have hblocks : ∀ slot, fs'.blockAt ino slot = fs.blockAt ino slot := by
    intro slot
    cases slot with
    | inode => rfl
    | indirect => simp only [SfsFs.blockAt, hino]
    | data k =>
        simp only [SfsFs.blockAt, hino]
        exact dataBlock_congr k (hsame .indirect)
  refine ⟨hblocks, ?_⟩
  funext k
  exact fileBlock_congr (hblocks (.data k)) (hsame (.data k))

theorem Guarded.withFresh (hguarded : Guarded n fs) (b : Nat) : Guarded n (fs.withFresh b) := by
  refine hguarded.congr rfl rfl rfl ?_
  intro i hset
  show (fs.sfsFreemap.mark b).bitmapIsset i = true
  rw [Bitmap.isset_mark, hset, Bool.true_or]

section Fresh

variable (h : Files n live fs) (hclear : fs.sfsFreemap.bitmapIsset b = false)

include h hclear

/-- The new block is in no file. -/
theorem Files.unheld_of_clear {p : Place} (hp : fs.held live p ≠ 0) : fs.held live p ≠ b := by
  intro hsame
  have hset := h.isset hp
  rw [hsame, hclear] at hset
  cases hset

theorem Files.disk_fresh (hlive : live ino = true) (slot : Slot)
    (hblock : fs.blockAt ino slot ≠ 0) :
    (fs.withFresh b).disk (fs.blockAt ino slot) = fs.disk (fs.blockAt ino slot) := by
  rw [← held_of_live hlive] at hblock ⊢
  exact Function.update_of_ne (h.unheld_of_clear hclear hblock) _ _

theorem Files.onlyFile_fresh (sv : Nat) : OnlyFile live sv fs (fs.withFresh b) :=
  ⟨rfl, fun _ _ => rfl, rfl, rfl, rfl, rfl, rfl, fun _ slot hlive _ => h.disk_fresh hclear hlive slot⟩

theorem Files.same_fresh (hloaded : Loaded fs sv ino) :
    (∀ slot, (fs.withFresh b).blockAt ino slot = fs.blockAt ino slot) ∧
      (fs.withFresh b).file ino = fs.file ino :=
  (h.onlyFile_fresh hclear sv).same_own h hloaded rfl
    fun _ => h.disk_fresh hclear (hloaded.alive h) _

/-- Nothing changes for the files. -/
theorem Files.fresh (hloaded : Loaded fs sv ino) (hfree : ¬ Reserved n b) :
    Leaves n live sv ino fs (fs.file ino) (fs.size sv) (fs.withFresh b) ∧
      Fresh n live (fs.withFresh b) b := by
  have hlive := hloaded.alive h
  have honly := h.onlyFile_fresh hclear sv
  obtain ⟨hblocks, hfile⟩ := h.same_fresh hclear hloaded
  have hheld : (fs.withFresh b).held live = fs.held live := by
    apply honly.held_eq h.dead
    rw [hloaded.ino]
    exact hblocks
  have hmark : ∀ i, (fs.withFresh b).sfsFreemap.bitmapIsset i =
      (fs.sfsFreemap.bitmapIsset i || decide (i = b)) := Bitmap.isset_mark b
  refine ⟨⟨?_, honly, hfile, rfl⟩, ?_⟩
  · refine h.edit hloaded.mem honly (h.guarded.withFresh b) h.quiet ?_ ?_
    · intro hdirty
      rw [hloaded.ino]
      refine (h.disk_fresh hclear hlive .inode (h.ne_zero hlive)).trans ?_
      have hclean := h.clean sv hloaded.mem hdirty
      rw [hloaded.ino] at hclean
      exact hclean
    · rw [hheld]
      refine h.holding.mono ?_
      intro p _ ⟨hset, hunreserved⟩
      refine ⟨?_, hunreserved⟩
      rw [hmark, hset, Bool.true_or]
  · refine ⟨?_, hfree, ?_, Function.update_self _ _ _⟩
    · rw [hmark, decide_eq_true rfl, Bool.or_true]
    · intro p hsame
      rw [hheld] at hsame
      refine h.unheld_of_clear hclear ?_ hsame
      rw [hsame]
      intro hzero
      exact hfree (Or.inl hzero)

end Fresh

/-! A new block goes into the file. -/

/-- A new block is put in a place of the file that was empty. -/
theorem Files.put (h : Files n live fs) (hloaded : Loaded fs sv ino)
    (honly : OnlyFile live sv fs fs') (hfreemap : fs'.sfsFreemap = fs.sfsFreemap)
    (hguarded : Guarded n fs') (hquiet : fs'.mediaErrors = [])
    (hclean : (fs'.vnode sv).svDirty = false → fs'.disk ino = (fs'.vnode sv).svI)
    {slot : Slot} (hfresh : Fresh n live fs b) (hput : fs'.blockAt ino slot = b)
    (hsame : ∀ other, other ≠ slot → fs'.blockAt ino other = fs.blockAt ino other) :
    Files n live fs' := by
  have hlive := hloaded.alive h
  rw [← hloaded.ino] at hlive hclean hput hsame
  refine h.edit hloaded.mem honly hguarded hquiet hclean ?_
  rw [honly.held_update h.dead hlive slot hsame, hput]
  have hput := h.holding.put (p := ⟨(fs.vnode sv).svIno, slot⟩)
    ⟨hfresh.isset, fun _ => hfresh.unreserved⟩ hfresh.unheld
  refine hput.mono ?_
  intro p _ ⟨hset, hunreserved⟩
  refine ⟨?_, hunreserved⟩
  rw [hfreemap]
  exact hset

theorem Files.inode_withInode (h : Files n live fs) (hloaded : Loaded fs sv ino) (inode : Block) :
    (fs.withInode sv inode).inode ino = inode := by
  have hino : ∀ other, ((fs.withInode sv inode).vnode other).svIno = (fs.vnode other).svIno := by
    intro other
    by_cases hother : other = sv
    · rw [hother, vnode_withInode]
    · rw [vnode_withInode_of_ne hother]
  have hfind : (fs.withInode sv inode).loaded ino = some sv := by
    rw [← h.loaded_eq hloaded.mem, hloaded.ino]
    simp only [SfsFs.loaded, hino]
    rfl
  simp only [SfsFs.inode, hfind, vnode_withInode]

theorem Files.putInode (h : Files n live fs) (hloaded : Loaded fs sv ino) {inode : Block}
    (hheader : ∀ field, Header field → inode.get field = (fs.vnode sv).svI.get field)
    (slot : Slot) (hfresh : Fresh n live fs b)
    (hput : (fs.withInode sv inode).blockAt ino slot = b)
    (hsame : ∀ other, other ≠ slot →
      (fs.withInode sv inode).blockAt ino other = fs.blockAt ino other)
    (hfile : (fs.withInode sv inode).file ino = fs.file ino) :
    Leaves n live sv ino fs (fs.file ino) (fs.size sv) (fs.withInode sv inode) := by
  have honly : OnlyFile live sv fs (fs.withInode sv inode) :=
    onlyFile_withInode (hheader _ header_sfiType) (hheader _ header_sfiLinkcount)
  refine ⟨?_, honly, hfile, ?_⟩
  · refine h.put hloaded honly rfl ?_ h.quiet ?_ hfresh hput hsame
    · exact h.guarded.congr rfl rfl rfl (fun _ hset => hset)
    · intro hdirty
      rw [vnode_withInode] at hdirty
      cases hdirty
  · rw [SfsFs.size, vnode_withInode]
    exact hheader _ header_sfiSize

/-- The block numbers of the file with one of the direct ones set. -/
theorem Files.blockAt_direct (h : Files n live fs) (hloaded : Loaded fs sv ino) (hk : k < 15)
    (hword : b < 2 ^ 32) (j : Nat) :
    (fs.withInode sv ((fs.vnode sv).svI.set (sfiDirect k) b)).blockAt ino (.data j) =
      if j = k then b else fs.blockAt ino (.data j) := by
  rw [SfsFs.blockAt, SfsFs.blockAt, h.inode_withInode hloaded, hloaded.inode h]
  exact dataBlock_set_direct fs.disk (fs.vnode sv).svI hk hword j

theorem Files.putDirect (h : Files n live fs) (hloaded : Loaded fs sv ino) (hk : k < 15)
    (hhole : (fs.vnode sv).svI.get (sfiDirect k) = 0) (hfresh : Fresh n live fs b) :
    Leaves n live sv ino fs (fs.file ino) (fs.size sv)
      (fs.withInode sv ((fs.vnode sv).svI.set (sfiDirect k) b)) := by
  have hdata := h.blockAt_direct hloaded hk (hfresh.lt h.sized)
  refine h.putInode hloaded ?_ (.data k) hfresh ((hdata k).trans (if_pos rfl)) ?_ ?_
  · intro field hfield
    exact hfield.set_direct _ k b
  · intro other hother
    cases other with
    | inode => rfl
    | indirect =>
        simp only [SfsFs.blockAt]
        rw [h.inode_withInode hloaded, hloaded.inode h, indirect_set_direct _ hk]
    | data j =>
        have hne : j ≠ k := by
          intro heq
          exact hother (by rw [heq])
        exact (hdata j).trans (if_neg hne)
  · funext j
    by_cases hj : j = k
    · have hempty : fs.blockAt ino (.data j) = 0 := by
        rw [SfsFs.blockAt, hloaded.inode h, hj, dataBlock, if_pos hk, hhole]
      have hfilled := (hdata j).trans (if_pos hj)
      simp only [SfsFs.blockAt] at hempty hfilled
      rw [SfsFs.file, SfsFs.file, fileBlock, fileBlock, hempty, hfilled, if_pos rfl,
        if_neg hfresh.ne_zero]
      exact hfresh.zeros
    · exact fileBlock_congr ((hdata j).trans (if_neg hj)) (fun _ => rfl)

/-- A new indirect block has no entries. -/
theorem Files.blockAt_indirect (h : Files n live fs) (hloaded : Loaded fs sv ino)
    (hhole : (fs.vnode sv).svI.get sfiIndirect = 0) (hfresh : Fresh n live fs b) (j : Nat) :
    (fs.withInode sv ((fs.vnode sv).svI.set sfiIndirect b)).blockAt ino (.data j) =
      fs.blockAt ino (.data j) := by
  rw [SfsFs.blockAt, SfsFs.blockAt, h.inode_withInode hloaded, hloaded.inode h]
  show dataBlock fs.disk _ j = _
  unfold dataBlock
  rw [indirect_set_indirect _ (hfresh.lt h.sized), hfresh.zeros, hhole]
  by_cases hj : j < 15
  · rw [if_pos hj, if_pos hj, direct_set_indirect _ hj]
  · simp only [hj, if_false, Record.get_zeros, ne_eq, not_true, and_false, ite_self]

theorem Files.putIndirect (h : Files n live fs) (hloaded : Loaded fs sv ino)
    (hhole : (fs.vnode sv).svI.get sfiIndirect = 0) (hfresh : Fresh n live fs b) :
    Leaves n live sv ino fs (fs.file ino) (fs.size sv)
      (fs.withInode sv ((fs.vnode sv).svI.set sfiIndirect b)) := by
  have hdata := h.blockAt_indirect hloaded hhole hfresh
  refine h.putInode hloaded ?_ .indirect hfresh ?_ ?_ ?_
  · intro field hfield
    exact hfield.set_indirect _ b
  · rw [SfsFs.blockAt, h.inode_withInode hloaded, indirect_set_indirect _ (hfresh.lt h.sized)]
  · intro other hother
    cases other with
    | inode => rfl
    | indirect => exact absurd rfl hother
    | data j => exact hdata j
  · funext j
    exact fileBlock_congr (hdata j) (fun _ => rfl)

/-! Writing a block of the file. -/

theorem Files.onlyFile_own (h : Files n live fs) (hloaded : Loaded fs sv ino) {slot : Slot}
    (hb : fs.blockAt ino slot = b) (data : Block) :
    OnlyFile live sv fs (fs.withBlock b data) := by
  apply onlyFile_withBlock
  intro ino' slot' hlive' hne hblock
  rw [hloaded.ino] at hne
  rw [← hb]
  exact h.apart_own (hloaded.alive h) hlive' hne hblock

/-- The disk under the other places of the file stays. -/
theorem Files.disk_own (h : Files n live fs) (hloaded : Loaded fs sv ino) {slot : Slot}
    (hb : fs.blockAt ino slot = b) (data : Block) (other : Slot) (hother : other ≠ slot)
    (hblock : fs.blockAt ino other ≠ 0) :
    (fs.withBlock b data).disk (fs.blockAt ino other) = fs.disk (fs.blockAt ino other) := by
  apply Function.update_of_ne
  intro hsame
  exact hother (h.slot_eq (hloaded.alive h) (hsame.trans hb.symm) hblock)

theorem Files.clean_own (h : Files n live fs) (hloaded : Loaded fs sv ino) {slot : Slot}
    (hb : fs.blockAt ino slot = b) (hslot : slot ≠ .inode) (data : Block)
    (hdirty : (fs.vnode sv).svDirty = false) :
    (fs.withBlock b data).disk ino = (fs.vnode sv).svI := by
  have hclean := h.clean sv hloaded.mem hdirty
  rw [hloaded.ino] at hclean
  rw [← hclean]
  exact h.disk_own hloaded hb data .inode hslot.symm (h.ne_zero (hloaded.alive h))

section Entry

variable (h : Files n live fs) (hloaded : Loaded fs sv ino) (hj : j < 128)
  (hidblock : (fs.vnode sv).svI.get sfiIndirect = idblock) (hmapped : idblock ≠ 0)

include h hloaded hidblock

theorem Files.inode_entry (data : Block) :
    (fs.withBlock idblock data).inode ino = (fs.vnode sv).svI := by
  have hb : fs.blockAt ino .indirect = idblock := by
    rw [SfsFs.blockAt, hloaded.inode h, hidblock]
  have hinode := (h.onlyFile_own hloaded hb data).inode_own h hloaded.mem
  rw [hloaded.ino] at hinode
  exact hinode

include hj hmapped

/-- The block numbers of the file with one in the indirect block set. -/
theorem Files.blockAt_entry (hword : b < 2 ^ 32) (m : Nat) :
    (fs.withBlock idblock ((fs.disk idblock).set (idbufEntry j) b)).blockAt ino (.data m) =
      if m = 15 + j then b else fs.blockAt ino (.data m) := by
  rw [SfsFs.blockAt, SfsFs.blockAt, h.inode_entry hloaded hidblock, hloaded.inode h]
  subst hidblock
  exact dataBlock_set_entry hj hword hmapped (Function.update_self _ _ _) m

theorem Files.putEntry (hhole : (fs.disk idblock).get (idbufEntry j) = 0)
    (hfresh : Fresh n live fs b) :
    Leaves n live sv ino fs (fs.file ino) (fs.size sv)
      (fs.withBlock idblock ((fs.disk idblock).set (idbufEntry j) b)) := by
  have hb : fs.blockAt ino .indirect = idblock := by
    rw [SfsFs.blockAt, hloaded.inode h, hidblock]
  have honly := h.onlyFile_own hloaded hb ((fs.disk idblock).set (idbufEntry j) b)
  have hdata := h.blockAt_entry hloaded hj hidblock hmapped (hfresh.lt h.sized)
  have hclean := h.clean_own hloaded hb (by simp) ((fs.disk idblock).set (idbufEntry j) b)
  refine ⟨?_, honly, ?_, rfl⟩
  · refine h.put hloaded honly rfl (h.guarded.congr rfl rfl rfl (fun _ hset => hset)) h.quiet
      hclean hfresh ((hdata (15 + j)).trans (if_pos rfl)) ?_
    intro other hslot
    cases other with
    | inode => rfl
    | indirect =>
        simp only [SfsFs.blockAt]
        rw [h.inode_entry hloaded hidblock, hloaded.inode h]
    | data m =>
        have hne : m ≠ 15 + j := by
          intro heq
          exact hslot (by rw [heq])
        exact (hdata m).trans (if_neg hne)
  · funext m
    by_cases hm : m = 15 + j
    · have hempty : fs.blockAt ino (.data m) = 0 := by
        rw [SfsFs.blockAt, hloaded.inode h, hm, dataBlock, if_neg (by omega), hidblock,
          if_pos ⟨by omega, hmapped⟩, show 15 + j - 15 = j by omega, hhole]
      have hfilled := (hdata m).trans (if_pos hm)
      have hapart : b ≠ idblock := by
        intro heq
        refine hfresh.unheld ⟨ino, .indirect⟩ ?_
        rw [held_of_live (hloaded.alive h), hb, heq]
      simp only [SfsFs.blockAt] at hempty hfilled
      rw [SfsFs.file, SfsFs.file, fileBlock, fileBlock, hempty, hfilled, if_pos rfl,
        if_neg hfresh.ne_zero]
      exact (Function.update_of_ne hapart _ _).trans hfresh.zeros
    · refine fileBlock_congr ((hdata m).trans (if_neg hm)) ?_
      exact h.disk_own hloaded hb ((fs.disk idblock).set (idbufEntry j) b) (.data m) (by simp)

end Entry

/-- A block of data is replaced. -/
theorem Files.write (h : Files n live fs) (hloaded : Loaded fs sv ino)
    (hb : fs.blockAt ino (.data k) = b) (hmapped : b ≠ 0) (data : Block) :
    Leaves n live sv ino fs (Function.update (fs.file ino) k data) (fs.size sv)
      (fs.withBlock b data) := by
  have hlive := hloaded.alive h
  have hbefore := hloaded.inode h
  have honly := h.onlyFile_own hloaded hb data
  have hinode := honly.inode_own h hloaded.mem
  rw [hloaded.ino] at hinode
  have hsame : (fs.withBlock b data).inode ino = fs.inode ino := by
    rw [hinode, hbefore]
    rfl
  have hdata : ∀ m, dataBlock (fs.withBlock b data).disk ((fs.withBlock b data).inode ino) m =
      dataBlock fs.disk (fs.inode ino) m := by
    intro m
    rw [hsame]
    exact dataBlock_congr m (h.disk_own hloaded hb data .indirect (by simp))
  have hheld : (fs.withBlock b data).held live = fs.held live := by
    apply honly.held_eq h.dead
    rw [hloaded.ino]
    intro slot
    cases slot with
    | inode => rfl
    | indirect => simp only [SfsFs.blockAt, hsame]
    | data m => exact hdata m
  refine ⟨?_, honly, ?_, rfl⟩
  · refine h.edit hloaded.mem honly (h.guarded.congr rfl rfl rfl (fun _ hset => hset)) h.quiet
      ?_ ?_
    · rw [hloaded.ino]
      exact h.clean_own hloaded hb (by simp) data
    · rw [hheld]
      exact h.holding
  · funext m
    by_cases hm : m = k
    · subst hm
      have hblock : dataBlock fs.disk (fs.inode ino) m = b := hb
      rw [Function.update_self, SfsFs.file, fileBlock, hdata, hblock, if_neg hmapped]
      exact Function.update_self _ _ _
    · rw [Function.update_of_ne hm]
      refine fileBlock_congr (hdata m) ?_
      exact h.disk_own hloaded hb data (.data m) (by simpa using hm)

/-- The length of the file is set. -/
theorem Files.resize (h : Files n live fs) (hloaded : Loaded fs sv ino) (hx : x < 2 ^ 32) :
    Leaves n live sv ino fs (fs.file ino) x
      (fs.withInode sv ((fs.vnode sv).svI.set sfiSize x)) := by
  have hinode := h.inode_withInode hloaded ((fs.vnode sv).svI.set sfiSize x)
  have hbefore := hloaded.inode h
  have honly : OnlyFile live sv fs (fs.withInode sv ((fs.vnode sv).svI.set sfiSize x)) := by
    apply onlyFile_withInode
    · exact Record.get_set_of_disjoint _ _ (by decide) (by decide)
    · exact Record.get_set_of_disjoint _ _ (by decide) (by decide)
  have hdata : ∀ m, dataBlock fs.disk ((fs.vnode sv).svI.set sfiSize x) m =
      dataBlock fs.disk (fs.vnode sv).svI m :=
    dataBlock_set_header fs.disk (fs.vnode sv).svI header_sfiSize x
  have hheld : (fs.withInode sv ((fs.vnode sv).svI.set sfiSize x)).held live = fs.held live := by
    apply honly.held_eq h.dead
    rw [hloaded.ino]
    intro slot
    cases slot with
    | inode => rfl
    | indirect =>
        simp only [SfsFs.blockAt]
        rw [hinode, hbefore, header_sfiSize.indirect]
    | data m =>
        simp only [SfsFs.blockAt]
        rw [hinode, hbefore]
        exact hdata m
  refine ⟨?_, honly, ?_, ?_⟩
  · refine h.edit hloaded.mem honly (h.guarded.congr rfl rfl rfl (fun _ hset => hset)) h.quiet
      ?_ ?_
    · intro hdirty
      rw [vnode_withInode] at hdirty
      cases hdirty
    · rw [hheld]
      exact h.holding
  · funext m
    simp only [SfsFs.file]
    rw [hinode, hbefore]
    exact fileBlock_congr (hdata m) (fun _ => rfl)
  · rw [SfsFs.size, vnode_withInode]
    exact Record.get_set _ (by decide) hx

/-! `sfs_bmap`. -/

/-- A block that a file holds is marked in the free map. -/
theorem wp_handBack {post : Nat → SfsFs → Prop} {fails : Errno → SfsFs → Prop}
    {bad : Fault → Prop} (h : Files n live fs) (hlive : live ino = true) {slot : Slot}
    (hb : fs.blockAt ino slot = b) (hdone : post b fs) :
    Prog.wp (handBack b) post fails bad fs := by
  unfold handBack
  rw [Prog.wp_ite]
  split
  case isFalse => exact hdone
  case isTrue hmapped =>
      rw [← hb, ← held_of_live hlive] at hmapped
      have hlt := h.lt hmapped
      have hset := h.isset hmapped
      rw [held_of_live hlive, hb] at hlt hset
      rw [← h.guarded.nblocks] at hlt
      simp only [sfsBused, ↓Prog.wp_bind, ↓Prog.wp_get, ↓Prog.wp_assert, ↓Prog.wp_pure, hset,
        if_true]
      rw [if_pos hlt]
      exact hdone

/-- The blocks of files are on the device. -/
theorem Files.on_device (h : Files n live fs) (hlive : live ino = true) {slot : Slot}
    (hb : fs.blockAt ino slot = b) (hmapped : b ≠ 0) : b < fs.dBlocks := by
  have hdevice := h.guarded.device
  rw [← hb, ← held_of_live hlive] at hmapped
  have hlt := h.lt hmapped
  rw [held_of_live hlive, hb] at hlt
  omega

theorem sfsBmap_past {post : Nat → SfsFs → Prop} {fails : Errno → SfsFs → Prop}
    {bad : Fault → Prop} (hk : 143 ≤ k) (doalloc : Bool) (hfails : fails .EINVAL fs) :
    Prog.wp (sfsBmap sv k doalloc) post fails bad fs := by
  unfold sfsBmap
  rw [if_neg (by omega), if_pos (by omega)]
  exact hfails

/-- Nothing is to be allocated. -/
theorem sfsBmap_there {post : Nat → SfsFs → Prop} {fails : Errno → SfsFs → Prop}
    {bad : Fault → Prop} (h : Files n live fs) (hloaded : Loaded fs sv ino) (hk : k < 143)
    (hthere : doalloc = true → fs.blockAt ino (.data k) ≠ 0)
    (hdone : post (fs.blockAt ino (.data k)) fs) :
    Prog.wp (sfsBmap sv k doalloc) post fails bad fs := by
  have hlive := hloaded.alive h
  have hinode := hloaded.inode h
  unfold sfsBmap
  by_cases hdirect : k < 15
  · have hblock : fs.blockAt ino (.data k) = (fs.vnode sv).svI.get (sfiDirect k) := by
      rw [SfsFs.blockAt, hinode, dataBlock, if_pos hdirect]
    rw [if_pos hdirect]
    simp only [bmapDirect, ↓Prog.wp_bind, ↓Prog.wp_read, ↓Prog.wp_ite]
    rw [hblock] at hthere hdone
    rw [if_neg fun hboth => hthere hboth.2 hboth.1]
    exact wp_handBack h hlive hblock hdone
  · have hindex : (k - 15) % 128 = k - 15 := by omega
    rw [if_neg hdirect, if_neg (by omega), hindex]
    simp only [bmapIndirect, ↓Prog.wp_bind, ↓Prog.wp_read, ↓Prog.wp_ite]
    by_cases hmapped : (fs.vnode sv).svI.get sfiIndirect = 0
    · have hblock : fs.blockAt ino (.data k) = 0 := by
        rw [SfsFs.blockAt, hinode, dataBlock, if_neg hdirect, if_neg (by simp [hmapped])]
      have hflag : doalloc = false := by
        cases doalloc with
        | false => rfl
        | true => exact absurd hblock (hthere rfl)
      rw [if_pos ⟨hmapped, hflag⟩]
      rw [hblock] at hdone
      exact hdone
    · have hblock : fs.blockAt ino (.data k) =
          (fs.disk ((fs.vnode sv).svI.get sfiIndirect)).get (idbufEntry (k - 15)) := by
        rw [SfsFs.blockAt, hinode, dataBlock, if_neg hdirect, if_pos ⟨hk, hmapped⟩]
      have hindirect : fs.blockAt ino .indirect = (fs.vnode sv).svI.get sfiIndirect := by
        rw [SfsFs.blockAt, hinode]
      rw [if_neg (fun hboth => hmapped hboth.1), if_neg hmapped]
      refine wp_sfsRblock _ (h.on_device hlive hindirect hmapped) h.quiet ?_
      unfold bmapEntry
      rw [hblock] at hthere hdone
      rw [Prog.wp_ite, if_neg fun hboth => hthere hboth.2 hboth.1]
      exact wp_handBack h hlive hblock hdone

theorem sfsBmap_read {post : Nat → SfsFs → Prop} {fails : Errno → SfsFs → Prop}
    {bad : Fault → Prop} (h : Files n live fs) (hloaded : Loaded fs sv ino) (hk : k < 143)
    (hdone : post (fs.blockAt ino (.data k)) fs) :
    Prog.wp (sfsBmap sv k false) post fails bad fs :=
  sfsBmap_there h hloaded hk (fun hflag => by cases hflag) hdone

/-- The block is there, or one is allocated for it; the file reads the same. -/
structure Mapped (n : Nat) (live : Nat → Bool) (sv ino k : Nat) (fs : SfsFs) (b : Nat)
    (fs' : SfsFs) : Prop where
  leaves : Leaves n live sv ino fs (fs.file ino) (fs.size sv) fs'
  block : fs'.blockAt ino (.data k) = b
  mapped : b ≠ 0
  room : fs.lacks ino k ≤ fs.freeBlocks

/-- Allocate a block and go on with it. -/
theorem Files.balloc {post : Nat → SfsFs → Prop} {fails : Errno → SfsFs → Prop}
    {bad : Fault → Prop} (h : Files n live fs) (hloaded : Loaded fs sv ino)
    (hfull : fs.freeBlocks = 0 → fails .ENOSPC fs)
    (hdone : ∀ b, Leaves n live sv ino fs (fs.file ino) (fs.size sv) (fs.withFresh b) →
      Fresh n live (fs.withFresh b) b → fs.sfsFreemap.bitmapIsset b = false →
      fs.freeBlocks = (fs.withFresh b).freeBlocks + 1 → post b (fs.withFresh b)) :
    Prog.wp sfsBalloc post fails bad fs := by
  refine Prog.wp_mono (sfsBalloc_wp h) ?_ ?_ (fun _ hbad => hbad.elim)
  · intro b _ ⟨hfs', hfree, hclear⟩
    subst hfs'
    obtain ⟨hleaves, hfresh⟩ := h.fresh hclear hloaded hfree
    have hin : b < fs.sfsFreemap.nbits := by
      have hcovers := h.sized.covers
      rw [h.guarded.nbits]
      unfold Reserved at hfree
      omega
    exact hdone b hleaves hfresh hclear (freeBlocks_mark rfl hclear hin)
  · intro code _ ⟨hcode, hsame, hnone⟩
    subst hcode hsame
    exact hfull hnone

/-- There is no room for a block that the file does not have. -/
structure Full (n : Nat) (live : Nat → Bool) (sv ino k : Nat) (fs : SfsFs) (code : Errno)
    (fs' : SfsFs) : Prop where
  code : code = .ENOSPC
  hole : fs.blockAt ino (.data k) = 0
  leaves : Leaves n live sv ino fs (fs.file ino) (fs.size sv) fs'
  space : NoSpace fs ino k fs'.sfsFreemap

theorem lacks_mapped (hmapped : fs.blockAt ino (.data k) ≠ 0) : fs.lacks ino k = 0 := by
  rw [SfsFs.lacks, if_pos hmapped]

theorem lacks_one (hhole : fs.blockAt ino (.data k) = 0)
    (hplace : k < 15 ∨ fs.blockAt ino .indirect ≠ 0) : fs.lacks ino k = 1 := by
  rw [SfsFs.lacks, if_neg (by simp [hhole]), if_pos hplace]

theorem lacks_two (hhole : fs.blockAt ino (.data k) = 0) (hk : 15 ≤ k)
    (hnone : fs.blockAt ino .indirect = 0) : fs.lacks ino k = 2 := by
  rw [SfsFs.lacks, if_neg (by simp [hhole]), if_neg]
  rintro (hlow | hsome)
  · omega
  · exact hsome hnone

theorem lacks_le (fs : SfsFs) (ino k : Nat) : fs.lacks ino k ≤ 2 := by
  unfold SfsFs.lacks
  split
  · omega
  · split
    · omega
    · omega

/-- Where the file had the block, nothing has happened. Where it had none, its new one was
free and has been cleared. No other block of the file is elsewhere. -/
structure Bmapped (n : Nat) (live : Nat → Bool) (sv ino k : Nat) (fs : SfsFs) (b : Nat)
    (fs' : SfsFs) : Prop extends Mapped n live sv ino k fs b fs' where
  others : ∀ j, j ≠ k → fs'.blockAt ino (.data j) = fs.blockAt ino (.data j)
  kept : fs.blockAt ino (.data k) ≠ 0 → fs' = fs
  fresh : fs.blockAt ino (.data k) = 0 →
    fs.sfsFreemap.bitmapIsset b = false ∧ fs'.disk b = Record.zeros

/-- No block of the file has got anywhere else. -/
structure BmapFull (n : Nat) (live : Nat → Bool) (sv ino k : Nat) (fs : SfsFs) (code : Errno)
    (fs' : SfsFs) : Prop extends Full n live sv ino k fs code fs' where
  same : ∀ j, fs'.blockAt ino (.data j) = fs.blockAt ino (.data j)

/-- The block was there. -/
theorem Bmapped.refl (h : Files n live fs) (sv : Nat) (hblock : fs.blockAt ino (.data k) = b)
    (hmapped : b ≠ 0) : Bmapped n live sv ino k fs b fs where
  leaves := .refl h sv ino
  block := hblock
  mapped := hmapped
  room := by
    rw [lacks_mapped (by rw [hblock]; exact hmapped)]
    exact Nat.zero_le _
  others _ _ := rfl
  kept _ := rfl
  fresh hhole := absurd (hblock.symm.trans hhole) hmapped

/-- A block is allocated and put in the empty place. -/
theorem Bmapped.put (hleaves : Leaves n live sv ino fs (fs.file ino) (fs.size sv)
      (fs.withFresh b)) (hblocks : ∀ slot, (fs.withFresh b).blockAt ino slot = fs.blockAt ino slot)
    (hfresh : Fresh n live (fs.withFresh b) b) (hclear : fs.sfsFreemap.bitmapIsset b = false)
    (hhole : fs.blockAt ino (.data k) = 0) (hroom : fs.lacks ino k ≤ fs.freeBlocks)
    (hput : Leaves n live sv ino (fs.withFresh b) ((fs.withFresh b).file ino)
      ((fs.withFresh b).size sv) fs')
    (hdata : ∀ j, fs'.blockAt ino (.data j) =
      if j = k then b else (fs.withFresh b).blockAt ino (.data j))
    (hzeros : fs'.disk b = (fs.withFresh b).disk b) : Bmapped n live sv ino k fs b fs' where
  leaves := by
    rw [hleaves.file, hleaves.size] at hput
    exact hleaves.trans hput
  block := (hdata k).trans (if_pos rfl)
  mapped := hfresh.ne_zero
  room := hroom
  others j hj := ((hdata j).trans (if_neg hj)).trans (hblocks (.data j))
  kept hmapped := absurd hhole hmapped
  fresh _ := ⟨hclear, hzeros.trans hfresh.zeros⟩

/-- There is not a single block. -/
theorem BmapFull.none (h : Files n live fs) (sv : Nat) (hhole : fs.blockAt ino (.data k) = 0)
    (hlacks : 0 < fs.lacks ino k) (hzero : fs.freeBlocks = 0) :
    BmapFull n live sv ino k fs .ENOSPC fs where
  code := rfl
  hole := hhole
  leaves := .refl h sv ino
  space := ⟨by omega, fun _ => rfl, fun hsome => absurd hzero hsome⟩
  same _ := rfl

theorem bmapDirect_write (h : Files n live fs) (hloaded : Loaded fs sv ino) (hk : k < 15) :
    Prog.wp (bmapDirect sv k true) (Bmapped n live sv ino k fs) (BmapFull n live sv ino k fs)
      (fun _ => False) fs := by
  have hlive := hloaded.alive h
  have hblock : fs.blockAt ino (.data k) = (fs.vnode sv).svI.get (sfiDirect k) := by
    rw [SfsFs.blockAt, hloaded.inode h, dataBlock, if_pos hk]
  simp only [bmapDirect, ↓Prog.wp_bind, ↓Prog.wp_read, ↓Prog.wp_ite]
  split
  case isTrue hzero =>
      have hhole := hblock.trans hzero.1
      have hone := lacks_one hhole (Or.inl hk)
      refine h.balloc hloaded (.none h sv hhole (by omega)) ?_
      intro b hleaves hfresh hclear hcount
      have hloaded' := hloaded.only hleaves.only
      have hput := hleaves.files.putDirect hloaded' hk hzero.1 hfresh
      have hdata := hleaves.files.blockAt_direct hloaded' hk (hfresh.lt h.sized)
      rw [wp_setInode]
      exact wp_handBack hput.files hlive ((hdata k).trans (if_pos rfl))
        (.put hleaves (h.same_fresh hclear hloaded).1 hfresh hclear hhole (by omega) hput hdata rfl)
  case isFalse hmapped =>
      have hsome : (fs.vnode sv).svI.get (sfiDirect k) ≠ 0 := fun hzero => hmapped ⟨hzero, trivial⟩
      exact wp_handBack h hlive hblock (.refl h sv hblock hsome)

theorem bmapEntry_write (h : Files n live fs) (hloaded : Loaded fs sv ino) (hj : j < 128)
    (hidblock : (fs.vnode sv).svI.get sfiIndirect = idblock) (hmapped : idblock ≠ 0) :
    Prog.wp (bmapEntry idblock (fs.disk idblock) j true) (Bmapped n live sv ino (15 + j) fs)
      (BmapFull n live sv ino (15 + j) fs) (fun _ => False) fs := by
  have hlive := hloaded.alive h
  have hinode := hloaded.inode h
  have hindirect : fs.blockAt ino .indirect = idblock := by
    rw [SfsFs.blockAt, hinode, hidblock]
  have hblock : fs.blockAt ino (.data (15 + j)) = (fs.disk idblock).get (idbufEntry j) := by
    rw [SfsFs.blockAt, hinode, dataBlock, if_neg (by omega), hidblock,
      if_pos ⟨by omega, hmapped⟩, show 15 + j - 15 = j by omega]
  simp only [bmapEntry, ↓Prog.wp_ite, ↓Prog.wp_bind]
  split
  case isTrue hzero =>
      have hhole := hblock.trans hzero.1
      have hone := lacks_one hhole (Or.inr (by rw [hindirect]; exact hmapped))
      refine h.balloc hloaded (.none h sv hhole (by omega)) ?_
      intro b hleaves hfresh hclear hcount
      have hloaded' := hloaded.only hleaves.only
      have hne : idblock ≠ b := by
        intro heq
        refine hfresh.unheld ⟨ino, .indirect⟩ ?_
        rw [held_of_live hlive, SfsFs.blockAt, hloaded'.inode hleaves.files, ← heq]
        exact hidblock
      have hkept : (fs.withFresh b).disk idblock = fs.disk idblock :=
        Function.update_of_ne hne _ _
      rw [← hkept] at hzero ⊢
      have hput := hleaves.files.putEntry hloaded' hj hidblock hmapped hzero.1 hfresh
      have hdata := hleaves.files.blockAt_entry hloaded' hj hidblock hmapped (hfresh.lt h.sized)
      refine wp_sfsWblock _ (h.on_device hlive hindirect hmapped) ?_
      rw [written_of_quiet hleaves.files.quiet]
      exact wp_handBack hput.files hlive ((hdata (15 + j)).trans (if_pos rfl))
        (.put hleaves (h.same_fresh hclear hloaded).1 hfresh hclear hhole (by omega) hput hdata
          (Function.update_of_ne hne.symm _ _))
  case isFalse hentry =>
      have hsome : (fs.disk idblock).get (idbufEntry j) ≠ 0 := fun hzero => hentry ⟨hzero, trivial⟩
      exact wp_handBack h hlive hblock (.refl h sv hblock hsome)

/-- What comes after a change to the file in which no block of data got elsewhere. -/
theorem Bmapped.trans (hleaves : Leaves n live sv ino fs (fs.file ino) (fs.size sv) fs')
    (hblocks : ∀ j, fs'.blockAt ino (.data j) = fs.blockAt ino (.data j))
    (hmarks : ∀ i, fs'.sfsFreemap.bitmapIsset i = false → fs.sfsFreemap.bitmapIsset i = false)
    (hhole : fs.blockAt ino (.data k) = 0) (hroom : fs.lacks ino k ≤ fs.freeBlocks)
    (hsecond : Bmapped n live sv ino k fs' b fs'') : Bmapped n live sv ino k fs b fs'' where
  leaves := by
    have hlast := hsecond.leaves
    rw [hleaves.file, hleaves.size] at hlast
    exact hleaves.trans hlast
  block := hsecond.block
  mapped := hsecond.mapped
  room := hroom
  others j hj := (hsecond.others j hj).trans (hblocks j)
  kept hmapped := absurd hhole hmapped
  fresh _ := by
    obtain ⟨hclear, hzeros⟩ := hsecond.fresh ((hblocks k).trans hhole)
    exact ⟨hmarks b hclear, hzeros⟩

theorem bmapIndirect_write (h : Files n live fs) (hloaded : Loaded fs sv ino) (hj : j < 128) :
    Prog.wp (bmapIndirect sv j true) (Bmapped n live sv ino (15 + j) fs)
      (BmapFull n live sv ino (15 + j) fs) (fun _ => False) fs := by
  have hlive := hloaded.alive h
  have hinode := hloaded.inode h
  simp only [bmapIndirect, ↓Prog.wp_bind, ↓Prog.wp_read, ↓Prog.wp_ite]
  rw [if_neg (by simp)]
  split
  case isTrue hnone =>
      have hhole : fs.blockAt ino (.data (15 + j)) = 0 := by
        rw [SfsFs.blockAt, hinode, dataBlock, if_neg (by omega), if_neg (by simp [hnone])]
      have hindirect : fs.blockAt ino .indirect = 0 := by
        rw [SfsFs.blockAt, hinode, hnone]
      have htwo : fs.lacks ino (15 + j) = 2 := lacks_two hhole (by omega) hindirect
      refine h.balloc hloaded (.none h sv hhole (by omega)) ?_
      intro idblock hleaves hfresh hclear hcount
      have hloaded' := hloaded.only hleaves.only
      have hput := hleaves.files.putIndirect hloaded' hnone hfresh
      have hadded := hleaves.files.blockAt_indirect hloaded' hnone hfresh
      rw [hleaves.file, hleaves.size] at hput
      have hboth := hleaves.trans hput
      have hword := hfresh.lt h.sized
      rw [wp_setInode]
      generalize hfs' : (fs.withFresh idblock).withInode sv
        (((fs.withFresh idblock).vnode sv).svI.set sfiIndirect idblock) = fs' at *
      have hloaded'' := hloaded.only hboth.only
      have hidblock : (fs'.vnode sv).svI.get sfiIndirect = idblock := by
        rw [← hfs', vnode_withInode]
        exact indirect_set_indirect _ hword
      have hzeros : fs'.disk idblock = Record.zeros := by
        rw [← hfs']
        exact hfresh.zeros
      have hfreemap : fs'.sfsFreemap = fs.sfsFreemap.mark idblock := by rw [← hfs']; rfl
      have hblocks : ∀ m, fs'.blockAt ino (.data m) = fs.blockAt ino (.data m) := fun m =>
        (hadded m).trans ((h.same_fresh hclear hloaded).1 (.data m))
      have hcount' : fs.freeBlocks = fs'.freeBlocks + 1 := by
        rw [hcount, ← hfs']
        rfl
      have hone : fs'.lacks ino (15 + j) = 1 := by
        refine lacks_one ((hblocks _).trans hhole) (Or.inr ?_)
        rw [SfsFs.blockAt, hloaded''.inode hput.files, hidblock]
        exact hfresh.ne_zero
      have hentry := bmapEntry_write hput.files hloaded'' hj hidblock hfresh.ne_zero
      rw [hzeros] at hentry
      refine Prog.wp_mono hentry ?_ ?_ (fun _ hbad => hbad)
      · intro b fs'' hmapped
        have hroom := hmapped.room
        refine .trans hboth hblocks ?_ hhole (by omega) hmapped
        intro i hi
        rw [hfreemap, Bitmap.isset_mark, Bool.or_eq_false_iff] at hi
        exact hi.1
      · intro code fs'' hfull
        have hrest := hfull.leaves
        rw [hput.file, hput.size] at hrest
        have hshort := hfull.space.short
        refine ⟨⟨hfull.code, hhole, hboth.trans hrest, by omega, fun hzero => by omega, ?_⟩, ?_⟩
        · intro _
          refine ⟨idblock, hclear, ?_⟩
          rw [hfull.space.same (by omega), hfreemap, Bitmap.isset_mark, decide_eq_true rfl,
            Bool.or_true]
        · intro m
          exact (hfull.same m).trans (hblocks m)
  case isFalse hsome =>
      have hindirect : fs.blockAt ino .indirect = (fs.vnode sv).svI.get sfiIndirect := by
        rw [SfsFs.blockAt, hinode]
      refine wp_sfsRblock _ (h.on_device hlive hindirect hsome) h.quiet ?_
      exact bmapEntry_write h hloaded hj rfl hsome

/-- Room for block `k` of the file is found, or nothing is. -/
theorem sfsBmap_maps (h : Files n live fs) (hloaded : Loaded fs sv ino) (hk : k < 143) :
    Prog.wp (sfsBmap sv k true) (Bmapped n live sv ino k fs) (BmapFull n live sv ino k fs)
      (fun _ => False) fs := by
  unfold sfsBmap
  by_cases hdirect : k < 15
  · rw [if_pos hdirect]
    exact bmapDirect_write h hloaded hdirect
  · have hindex : (k - 15) % 128 = k - 15 := by omega
    have hplace : k = 15 + (k - 15) := by omega
    rw [if_neg hdirect, if_neg (by omega), hindex]
    have hindirect := bmapIndirect_write (j := k - 15) h hloaded (by omega)
    rw [← hplace] at hindirect
    exact hindirect

/-- Room for block `k` of the file is found. -/
theorem sfsBmap_write (h : Files n live fs) (hloaded : Loaded fs sv ino) (hk : k < 143) :
    Prog.wp (sfsBmap sv k true) (Mapped n live sv ino k fs) (Full n live sv ino k fs)
      (fun _ => False) fs :=
  Prog.wp_mono (sfsBmap_maps h hloaded hk) (fun _ _ hmaps => hmaps.toMapped)
    (fun _ _ hfull => hfull.toFull) (fun _ hbad => hbad)

end OS161.Sfs
