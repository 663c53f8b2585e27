import OS161.Sfs.FileIo
import OS161.Sfs.Vnode

namespace OS161.Sfs

open OS161.Data
open OS161.Kern
open OS161.Lib
open OS161.Vfs

/-! What `sfs_truncate` does to a file. -/

variable {fs fs' fs'' : SfsFs} {live : Nat → Bool} {sv ino n b i j : Nat}

/-- The file system with a block given back. -/
def SfsFs.withUnmark (fs : SfsFs) (b : Nat) : SfsFs :=
  { fs with sfsFreemap := fs.sfsFreemap.unmark b, sfsFreemapdirty := true }

theorem wp_sfsBfree {post : Unit → SfsFs → Prop} {fails : Errno → SfsFs → Prop}
    {bad : Fault → Prop} (hrange : b < fs.sfsFreemap.nbits)
    (hset : fs.sfsFreemap.bitmapIsset b = true) (hdone : post () (fs.withUnmark b)) :
    Prog.wp (sfsBfree b) post fails bad fs := by
  simp only [sfsBfree, onFreemap, ↓Prog.wp_bind, ↓Prog.wp_zoom]
  rw [Bitmap.wp_bitmapUnmark, if_pos hrange, if_pos hset]
  exact hdone

section Freeable

variable (h : Files n live fs) (hlive : live ino = true) {slot : Slot}
  (hb : fs.blockAt ino slot = b) (hmapped : b ≠ 0)

include h hlive hb hmapped

theorem Files.in_map : b < fs.sfsFreemap.nbits := by
  have hcovers := h.sized.covers
  rw [← hb, ← held_of_live hlive] at hmapped
  have hlt := h.lt hmapped
  rw [held_of_live hlive, hb] at hlt
  rw [h.guarded.nbits]
  omega

theorem Files.in_use : fs.sfsFreemap.bitmapIsset b = true := by
  rw [← hb, ← held_of_live hlive] at hmapped
  have hset := h.isset hmapped
  rw [held_of_live hlive, hb] at hset
  exact hset

/-- No file but the root holds a reserved block. -/
theorem Files.unreserved (hslot : slot ≠ .inode) : ¬ Reserved n b := by
  rw [← hb, ← held_of_live hlive] at hmapped
  have hfits := (h.holding.fits ⟨ino, slot⟩ hmapped).2 (by simp [hslot])
  rw [held_of_live hlive, hb] at hfits
  exact hfits

theorem Files.guarded_unmark (hslot : slot ≠ .inode) : Guarded n (fs.withUnmark b) := by
  have hunreserved := h.unreserved hlive hb hmapped hslot
  refine ⟨h.guarded.nblocks, h.guarded.device, h.guarded.nbits, ?_⟩
  intro i hi hreserved
  show (fs.sfsFreemap.unmark b).bitmapIsset i = true
  rw [Bitmap.isset_unmark, h.guarded.marked i hi hreserved, Bool.true_and, decide_eq_true_eq]
  intro heq
  rw [heq] at hreserved
  exact hunreserved hreserved

end Freeable

/-- A place of the file is emptied and its block given back. -/
theorem Files.drop (h : Files n live fs) (hloaded : Loaded fs sv ino)
    (honly : OnlyFile live sv fs fs') {slot : Slot} (hslot : slot ≠ .inode)
    (hb : fs.blockAt ino slot = b) (hmapped : b ≠ 0)
    (hfreemap : fs'.sfsFreemap = fs.sfsFreemap.unmark b) (hsuper : fs'.sfsSuper = fs.sfsSuper)
    (hdevice : fs'.dBlocks = fs.dBlocks) (hquiet : fs'.mediaErrors = [])
    (hclean : (fs'.vnode sv).svDirty = false → fs'.disk ino = (fs'.vnode sv).svI)
    (hempty : fs'.blockAt ino slot = 0)
    (hsame : ∀ other, other ≠ slot → fs'.blockAt ino other = fs.blockAt ino other) :
    Files n live fs' := by
  have hlive := hloaded.alive h
  have hguarded : Guarded n fs' := by
    refine (h.guarded_unmark hlive hb hmapped hslot).congr hsuper hdevice ?_ ?_
    · rw [hfreemap]
      rfl
    · intro i hset
      rw [hfreemap]
      exact hset
  rw [← hloaded.ino] at hlive hclean hempty hsame hb
  refine h.edit hloaded.mem honly hguarded hquiet hclean ?_
  rw [honly.held_update h.dead hlive slot hsame, hempty]
  refine h.holding.drop ?_
  intro q _ _ hother ⟨hset, hunreserved⟩
  refine ⟨?_, hunreserved⟩
  rw [held_of_live hlive, hb] at hother
  rw [hfreemap, Bitmap.isset_unmark, hset, Bool.true_and, decide_eq_true_eq]
  exact hother

/-- A block is marked after the change when it was before and no place of the file has let
it go. -/
def MarksFollow (ino : Nat) (fs fs' : SfsFs) : Prop :=
  ∀ i, fs'.sfsFreemap.bitmapIsset i = true ↔ fs.sfsFreemap.bitmapIsset i = true ∧
    ∀ slot, fs.blockAt ino slot = i → fs'.blockAt ino slot = i

theorem MarksFollow.refl (ino : Nat) (fs : SfsFs) : MarksFollow ino fs fs :=
  fun _ => ⟨fun hset => ⟨hset, fun _ hat => hat⟩, fun hset => hset.1⟩

theorem MarksFollow.trans (hfirst : MarksFollow ino fs fs') (hsecond : MarksFollow ino fs' fs'')
    (hslots : ∀ slot, fs'.blockAt ino slot = fs.blockAt ino slot ∨ fs'.blockAt ino slot = 0)
    (hslots' : ∀ slot, fs''.blockAt ino slot = fs'.blockAt ino slot ∨
      fs''.blockAt ino slot = 0) :
    MarksFollow ino fs fs'' := by
  intro i
  rw [hsecond i, hfirst i, and_assoc, and_congr_right_iff]
  intro _
  constructor
  · intro ⟨hkept, hkept'⟩ slot hat
    exact hkept' slot (hkept slot hat)
  · intro hkept
    refine ⟨?_, ?_⟩
    · intro slot hat
      have hlast := hkept slot hat
      rcases hslots slot with hsame | hgone
      · rw [hsame, hat]
      · rcases hslots' slot with hsame' | hgone'
        · rw [← hsame', hlast]
        · rw [hgone, ← hgone', hlast]
    · intro slot hat
      rcases hslots slot with hsame | hgone
      · exact hkept slot (hsame ▸ hat)
      · rcases hslots' slot with hsame' | hgone'
        · rw [hsame', hat]
        · rw [hgone', ← hgone, hat]

theorem MarksFollow.congr (hblocks : ∀ slot, fs'.blockAt ino slot = fs.blockAt ino slot)
    (hmarks : ∀ i, fs'.sfsFreemap.bitmapIsset i = fs.sfsFreemap.bitmapIsset i) :
    MarksFollow ino fs fs' := by
  intro i
  rw [hmarks]
  refine ⟨fun hset => ⟨hset, fun slot hat => ?_⟩, fun hset => hset.1⟩
  rw [hblocks, hat]

/-- A place is emptied and its block given back. -/
theorem MarksFollow.drop {slot : Slot} (hb : fs.blockAt ino slot = b) (hmapped : b ≠ 0)
    (hfreemap : fs'.sfsFreemap = fs.sfsFreemap.unmark b) (hempty : fs'.blockAt ino slot = 0)
    (hsame : ∀ other, other ≠ slot → fs'.blockAt ino other = fs.blockAt ino other) :
    MarksFollow ino fs fs' := by
  intro i
  rw [hfreemap, Bitmap.isset_unmark, Bool.and_eq_true, decide_eq_true_eq, and_congr_right_iff]
  intro _
  constructor
  · intro hother other hat
    rw [hsame other, hat]
    intro heq
    rw [heq, hb] at hat
    exact hother hat.symm
  · intro hkept heq
    have hlast := hkept slot (hb.trans heq.symm)
    rw [hempty, heq] at hlast
    exact hmapped hlast.symm

/-- The blocks of the file that `keep` does not keep are given back. -/
structure Cut (n : Nat) (live : Nat → Bool) (sv ino : Nat) (keep : Nat → Bool) (fs fs' : SfsFs) :
    Prop where
  files : Files n live fs'
  only : OnlyFile live sv fs fs'
  size : fs'.size sv = fs.size sv
  blocks : ∀ k, fs'.blockAt ino (.data k) =
    if keep k = true then fs.blockAt ino (.data k) else 0
  disk : ∀ k, keep k = true → fs.blockAt ino (.data k) ≠ 0 →
    fs'.disk (fs.blockAt ino (.data k)) = fs.disk (fs.blockAt ino (.data k))
  indirect : fs'.blockAt ino .indirect = fs.blockAt ino .indirect ∨
    fs'.blockAt ino .indirect = 0
  marks : MarksFollow ino fs fs'

theorem Cut.slots (hcut : Cut n live sv ino keep fs fs') (slot : Slot) :
    fs'.blockAt ino slot = fs.blockAt ino slot ∨ fs'.blockAt ino slot = 0 := by
  cases slot with
  | inode => exact Or.inl rfl
  | indirect => exact hcut.indirect
  | data k =>
      rw [hcut.blocks]
      split
      · exact Or.inl rfl
      · exact Or.inr rfl

theorem Cut.file (hcut : Cut n live sv ino keep fs fs') (k : Nat) :
    fs'.file ino k = if keep k = true then fs.file ino k else Record.zeros := by
  have hblock : dataBlock fs'.disk (fs'.inode ino) k =
      if keep k = true then dataBlock fs.disk (fs.inode ino) k else 0 := hcut.blocks k
  split
  case isTrue hkeep =>
      rw [if_pos hkeep] at hblock
      exact fileBlock_congr hblock (hcut.disk k hkeep)
  case isFalse hgone =>
      rw [if_neg hgone] at hblock
      rw [SfsFs.file, fileBlock, hblock, if_pos rfl]

theorem Cut.refl (h : Files n live fs) (sv ino : Nat) :
    Cut n live sv ino (fun _ => true) fs fs :=
  ⟨h, .refl live sv fs, rfl, fun _ => rfl, fun _ _ _ => rfl, Or.inl rfl, .refl ino fs⟩

theorem Cut.trans {keep keep' : Nat → Bool} (hfirst : Cut n live sv ino keep fs fs')
    (hsecond : Cut n live sv ino keep' fs' fs'') :
    Cut n live sv ino (fun k => keep k && keep' k) fs fs'' where
  files := hsecond.files
  only := hfirst.only.trans hsecond.only hfirst.files.dead
  size := hsecond.size.trans hfirst.size
  blocks k := by
    rw [hsecond.blocks, hfirst.blocks]
    cases keep k <;> cases keep' k <;> rfl
  disk k hkeep hmapped := by
    rw [Bool.and_eq_true] at hkeep
    have hblock := hfirst.blocks k
    rw [if_pos hkeep.1] at hblock
    have hsame := hsecond.disk k hkeep.2
    rw [hblock] at hsame
    rw [hsame hmapped, hfirst.disk k hkeep.1 hmapped]
  indirect := by
    rcases hsecond.indirect with hsame | hgone
    · rw [hsame]
      exact hfirst.indirect
    · exact Or.inr hgone
  marks := hfirst.marks.trans hsecond.marks hfirst.slots hsecond.slots

theorem Cut.congr {keep keep' : Nat → Bool} (hcut : Cut n live sv ino keep fs fs')
    (hkeep : ∀ k, fs.blockAt ino (.data k) ≠ 0 → keep' k = keep k) :
    Cut n live sv ino keep' fs fs' where
  files := hcut.files
  only := hcut.only
  size := hcut.size
  blocks k := by
    rw [hcut.blocks]
    by_cases hmapped : fs.blockAt ino (.data k) = 0
    · rw [hmapped, ite_self, ite_self]
    · rw [hkeep k hmapped]
  disk k hkept hmapped := by
    rw [hkeep k hmapped] at hkept
    exact hcut.disk k hkept hmapped
  indirect := hcut.indirect
  marks := hcut.marks

/-! Single blocks are given back. -/

theorem onlyFile_withUnmark (live : Nat → Bool) (sv : Nat) (fs : SfsFs) (b : Nat) :
    OnlyFile live sv fs (fs.withUnmark b) :=
  ⟨rfl, fun _ _ => rfl, rfl, rfl, rfl, rfl, rfl, fun _ _ _ _ _ => rfl⟩

theorem Files.dropInode (h : Files n live fs) (hloaded : Loaded fs sv ino) {inode : Block}
    (hheader : ∀ field, Header field → inode.get field = (fs.vnode sv).svI.get field)
    {slot : Slot} (hslot : slot ≠ .inode) (hb : fs.blockAt ino slot = b) (hmapped : b ≠ 0)
    (hempty : ((fs.withUnmark b).withInode sv inode).blockAt ino slot = 0)
    (hsame : ∀ other, other ≠ slot →
      ((fs.withUnmark b).withInode sv inode).blockAt ino other = fs.blockAt ino other)
    {keep : Nat → Bool} (hkeep : ∀ k, keep k = decide (slot ≠ .data k)) :
    Cut n live sv ino keep fs ((fs.withUnmark b).withInode sv inode) := by
  have honly : OnlyFile live sv fs ((fs.withUnmark b).withInode sv inode) :=
    (onlyFile_withUnmark live sv fs b).trans
      (onlyFile_withInode (hheader _ header_sfiType) (hheader _ header_sfiLinkcount)) h.dead
  refine ⟨?_, honly, ?_, ?_, fun _ _ _ => rfl, ?_, .drop hb hmapped rfl hempty hsame⟩
  · refine h.drop hloaded honly hslot hb hmapped rfl rfl rfl h.quiet ?_ hempty hsame
    intro hdirty
    rw [vnode_withInode] at hdirty
    cases hdirty
  · rw [SfsFs.size, vnode_withInode]
    exact hheader _ header_sfiSize
  · intro k
    rw [hkeep]
    by_cases hk : slot = .data k
    · rw [if_neg (by simp [hk]), ← hk]
      exact hempty
    · rw [if_pos (by simpa using hk)]
      exact hsame _ (Ne.symm hk)
  · by_cases hat : slot = .indirect
    · rw [hat] at hempty
      exact Or.inr hempty
    · exact Or.inl (hsame _ (Ne.symm hat))

theorem Files.dropDirect (h : Files n live fs) (hloaded : Loaded fs sv ino) (hi : i < 15)
    (hb : (fs.vnode sv).svI.get (sfiDirect i) = b) (hmapped : b ≠ 0) :
    Cut n live sv ino (fun k => decide (k ≠ i)) fs
      ((fs.withUnmark b).withInode sv ((fs.vnode sv).svI.set (sfiDirect i) 0)) := by
  have hinode : ((fs.withUnmark b).withInode sv ((fs.vnode sv).svI.set (sfiDirect i) 0)).inode
      ino = (fs.vnode sv).svI.set (sfiDirect i) 0 :=
    h.inode_withInode hloaded ((fs.vnode sv).svI.set (sfiDirect i) 0)
  have hbefore := hloaded.inode h
  have hdata := dataBlock_set_direct fs.disk (fs.vnode sv).svI hi (show 0 < 2 ^ 32 by decide)
  have hblock : fs.blockAt ino (.data i) = b := by
    rw [SfsFs.blockAt, hbefore, dataBlock, if_pos hi, hb]
  refine h.dropInode hloaded ?_ (show Slot.data i ≠ .inode by simp) hblock hmapped ?_ ?_ ?_
  · intro field hfield
    exact hfield.set_direct _ i 0
  · simp only [SfsFs.blockAt]
    rw [hinode]
    exact (hdata i).trans (if_pos rfl)
  · intro other hother
    cases other with
    | inode => rfl
    | indirect =>
        simp only [SfsFs.blockAt]
        rw [hinode, hbefore, indirect_set_direct _ hi]
    | data k =>
        have hne : k ≠ i := by
          intro heq
          exact hother (by rw [heq])
        simp only [SfsFs.blockAt]
        rw [hinode, hbefore]
        exact (hdata k).trans (if_neg hne)
  · intro k
    simp only [ne_eq, Slot.data.injEq, eq_comm]

theorem Files.indirect_dropDirect (h : Files n live fs) (hloaded : Loaded fs sv ino)
    (hi : i < 15) (b : Nat) :
    ((fs.withUnmark b).withInode sv ((fs.vnode sv).svI.set (sfiDirect i) 0)).blockAt ino
      .indirect = fs.blockAt ino .indirect := by
  have hinode : ((fs.withUnmark b).withInode sv ((fs.vnode sv).svI.set (sfiDirect i) 0)).inode
      ino = (fs.vnode sv).svI.set (sfiDirect i) 0 :=
    h.inode_withInode hloaded ((fs.vnode sv).svI.set (sfiDirect i) 0)
  simp only [SfsFs.blockAt]
  rw [hinode, hloaded.inode h, indirect_set_direct _ hi]

theorem Files.dropIndirect (h : Files n live fs) (hloaded : Loaded fs sv ino)
    (hb : (fs.vnode sv).svI.get sfiIndirect = b) (hmapped : b ≠ 0)
    (hentries : ∀ j < 128, (fs.disk b).get (idbufEntry j) = 0) :
    Cut n live sv ino (fun _ => true) fs
      ((fs.withUnmark b).withInode sv ((fs.vnode sv).svI.set sfiIndirect 0)) := by
  have hinode : ((fs.withUnmark b).withInode sv ((fs.vnode sv).svI.set sfiIndirect 0)).inode
      ino = (fs.vnode sv).svI.set sfiIndirect 0 :=
    h.inode_withInode hloaded ((fs.vnode sv).svI.set sfiIndirect 0)
  have hbefore := hloaded.inode h
  have hblock : fs.blockAt ino .indirect = b := by
    rw [SfsFs.blockAt, hbefore, hb]
  refine h.dropInode hloaded ?_ (show Slot.indirect ≠ .inode by simp) hblock hmapped ?_ ?_ ?_
  · intro field hfield
    exact hfield.set_indirect _ 0
  · simp only [SfsFs.blockAt]
    rw [hinode, indirect_set_indirect _ (by decide)]
  · intro other hother
    cases other with
    | inode => rfl
    | indirect => exact absurd rfl hother
    | data k =>
        simp only [SfsFs.blockAt]
        rw [hinode, hbefore]
        unfold dataBlock
        by_cases hk : k < 15
        · rw [if_pos hk, if_pos hk, direct_set_indirect _ hk]
        · rw [if_neg hk, if_neg hk, indirect_set_indirect _ (by decide), if_neg (by simp), hb]
          split
          case isTrue hin => rw [hentries _ (by omega)]
          case isFalse => rfl
  · intro k
    simp

theorem Files.dropEntry (h : Files n live fs) (hloaded : Loaded fs sv ino) (hj : j < 128)
    (hidblock : (fs.vnode sv).svI.get sfiIndirect = idblock) (hidmapped : idblock ≠ 0)
    (hb : (fs.disk idblock).get (idbufEntry j) = b) (hmapped : b ≠ 0) :
    Cut n live sv ino (fun k => decide (k ≠ 15 + j)) fs
      ((fs.withUnmark b).withBlock idblock ((fs.disk idblock).set (idbufEntry j) 0)) := by
  have hbefore := hloaded.inode h
  have hindirect : fs.blockAt ino .indirect = idblock := by
    rw [SfsFs.blockAt, hbefore, hidblock]
  have hblock : fs.blockAt ino (.data (15 + j)) = b := by
    rw [SfsFs.blockAt, hbefore, dataBlock, if_neg (by omega), hidblock,
      if_pos ⟨by omega, hidmapped⟩, show 15 + j - 15 = j by omega, hb]
  have hwrite := h.onlyFile_own hloaded hindirect ((fs.disk idblock).set (idbufEntry j) 0)
  have honly : OnlyFile live sv fs
      ((fs.withUnmark b).withBlock idblock ((fs.disk idblock).set (idbufEntry j) 0)) :=
    { hwrite with }
  have hinode := honly.inode_own h hloaded.mem
  rw [hloaded.ino] at hinode
  have hwritten : ((fs.withUnmark b).withBlock idblock
      ((fs.disk idblock).set (idbufEntry j) 0)).disk idblock =
      (fs.disk idblock).set (idbufEntry j) 0 := Function.update_self _ _ _
  have hclean := h.clean_own hloaded hindirect (by simp) ((fs.disk idblock).set (idbufEntry j) 0)
  have hown := h.disk_own hloaded hindirect ((fs.disk idblock).set (idbufEntry j) 0)
  generalize hfs' : (fs.withUnmark b).withBlock idblock
    ((fs.disk idblock).set (idbufEntry j) 0) = fs' at honly hinode hwritten ⊢
  have hsvI : (fs'.vnode sv).svI = (fs.vnode sv).svI := by
    subst hfs'
    rfl
  have hdata : ∀ k, dataBlock fs'.disk (fs.vnode sv).svI k =
      if k = 15 + j then 0 else dataBlock fs.disk (fs.vnode sv).svI k := by
    rw [← hidblock] at hidmapped hwritten
    exact dataBlock_set_entry hj (by decide) hidmapped hwritten
  have hempty : fs'.blockAt ino (.data (15 + j)) = 0 := by
    rw [SfsFs.blockAt, hinode, hsvI, hdata, if_pos rfl]
  have hsame : ∀ other, other ≠ .data (15 + j) →
      fs'.blockAt ino other = fs.blockAt ino other := by
    intro other hother
    cases other with
    | inode => rfl
    | indirect => simp only [SfsFs.blockAt, hinode, hsvI, hbefore]
    | data k =>
        have hne : k ≠ 15 + j := by
          intro heq
          exact hother (by rw [heq])
        simp only [SfsFs.blockAt, hinode, hsvI, hbefore]
        rw [hdata, if_neg hne]
  refine ⟨?_, honly, by rw [SfsFs.size, hsvI]; rfl, ?_, ?_, Or.inl (hsame _ (by simp)),
    .drop hblock hmapped (by rw [← hfs']; rfl) hempty hsame⟩
  · subst hfs'
    exact h.drop hloaded honly (show Slot.data (15 + j) ≠ .inode by simp) hblock hmapped rfl rfl
      rfl h.quiet hclean hempty hsame
  · intro k
    by_cases hk : k = 15 + j
    · rw [if_neg (by simp [hk]), hk]
      exact hempty
    · rw [if_pos (by simpa using hk)]
      exact hsame _ (by simpa using hk)
  · intro k _ hkept
    subst hfs'
    exact hown (.data k) (by simp) hkept

/-- A block that no place holds may be overwritten. -/
theorem Files.scribble (h : Files n live fs) (hloaded : Loaded fs sv ino)
    (hunheld : ∀ p, fs.held live p ≠ 0 → fs.held live p ≠ b) (data : Block) :
    Cut n live sv ino (fun _ => true) fs (fs.withBlock b data) := by
  have hlive := hloaded.alive h
  have hother : ∀ ino slot, live ino = true → fs.blockAt ino slot ≠ 0 →
      (fs.withBlock b data).disk (fs.blockAt ino slot) = fs.disk (fs.blockAt ino slot) := by
    intro ino slot hlive hblock
    rw [← held_of_live hlive] at hblock ⊢
    exact Function.update_of_ne (hunheld _ hblock) _ _
  have honly : OnlyFile live sv fs (fs.withBlock b data) :=
    ⟨rfl, fun _ _ => rfl, rfl, rfl, rfl, rfl, rfl, fun ino slot hlive _ => hother ino slot hlive⟩
  obtain ⟨hblocks, -⟩ := honly.same_own h hloaded rfl (hother ino · hlive)
  have hheld : (fs.withBlock b data).held live = fs.held live := by
    apply honly.held_eq h.dead
    rw [hloaded.ino]
    exact hblocks
  refine ⟨?_, honly, rfl, fun k => hblocks (.data k), fun k _ => hother ino (.data k) hlive,
    Or.inl (hblocks _), .congr hblocks (fun _ => rfl)⟩
  refine h.edit hloaded.mem honly (h.guarded.congr rfl rfl rfl (fun _ hset => hset)) h.quiet ?_ ?_
  · intro hdirty
    have hclean := h.clean sv hloaded.mem hdirty
    rw [hloaded.ino] at hclean ⊢
    exact (hother ino .inode hlive (h.ne_zero hlive)).trans hclean
  · rw [hheld]
    exact h.holding

/-! The loops of `sfs_truncate`. -/

theorem truncateDirect_wp (h : Files n live fs) (hloaded : Loaded fs sv ino) (hi : i < 15)
    (blocklen : Nat) :
    Prog.Returns (truncateDirect sv blocklen i)
      (fun _ fs' => Cut n live sv ino (fun k => decide (k ≠ i ∨ k < blocklen)) fs fs' ∧
        fs'.blockAt ino .indirect = fs.blockAt ino .indirect) fs := by
  have hblock : fs.blockAt ino (.data i) = (fs.vnode sv).svI.get (sfiDirect i) := by
    rw [SfsFs.blockAt, hloaded.inode h, dataBlock, if_pos hi]
  simp only [truncateDirect, ↓Prog.wp_bind, ↓Prog.wp_read, ↓Prog.wp_when, wp_setInode]
  split
  case isTrue hfree =>
      have hlive := hloaded.alive h
      refine wp_sfsBfree (h.in_map hlive hblock hfree.2) (h.in_use hlive hblock hfree.2) ?_
      refine ⟨(h.dropDirect hloaded hi rfl hfree.2).congr ?_,
        h.indirect_dropDirect hloaded hi _⟩
      intro k _
      rw [decide_eq_decide]
      omega
  case isFalse hkept =>
      refine ⟨(Cut.refl h sv ino).congr ?_, trivial⟩
      intro k hmapped
      rw [decide_eq_true_eq]
      by_cases hk : k = i
      · right
        rw [hk, hblock] at hmapped
        omega
      · exact Or.inl hk

theorem truncateDirects_wp (h : Files n live fs) (hloaded : Loaded fs sv ino) (blocklen : Nat) :
    Prog.Returns (Prog.forFrom (fun i _ => truncateDirect sv blocklen i) 15 0 ())
      (fun _ fs' => Cut n live sv ino (fun k => decide (15 ≤ k ∨ k < blocklen)) fs fs' ∧
        fs'.blockAt ino .indirect = fs.blockAt ino .indirect) fs := by
  refine Prog.wp_forFrom (fun i _ fs' =>
    Cut n live sv ino (fun k => decide (i ≤ k ∨ k < blocklen)) fs fs' ∧
      fs'.blockAt ino .indirect = fs.blockAt ino .indirect) ?_ ?_
  · intro i _ fs' _ hi ⟨hcut, hsame⟩
    refine Prog.Returns.mono (truncateDirect_wp hcut.files (hloaded.only hcut.only) (by omega)
      blocklen) ?_
    intro _ fs'' ⟨hnext, hsame'⟩
    refine ⟨(hcut.trans hnext).congr ?_, hsame'.trans hsame⟩
    intro k _
    rw [← Bool.decide_and, decide_eq_decide]
    omega
  · refine ⟨(Cut.refl h sv ino).congr ?_, rfl⟩
    intro k _
    simp

/-- The loop over the indirect block has come to entry `j`.  Its buffer is the block that
will be on the disk, so the file system is in order with the buffer written there. -/
structure Scanning (n : Nat) (live : Nat → Bool) (sv ino idblock blocklen : Nat) (fs : SfsFs)
    (j : Nat) (scan : IdScan) (fs' : SfsFs) : Prop where
  cut : Cut n live sv ino (fun k => decide (k < 15 ∨ 15 + j ≤ k ∨ k ≤ blocklen)) fs
    (fs'.withBlock idblock scan.idbuf)
  disk : fs'.disk = fs.disk
  vnode : fs'.vnode = fs.vnode
  clean : scan.iddirty = false → scan.idbuf = fs.disk idblock
  nonzero : scan.hasnonzero = true ↔ ∃ i < j, scan.idbuf.get (idbufEntry i) ≠ 0

theorem note_nonzero {scan : IdScan}
    (hnonzero : scan.hasnonzero = true ↔ ∃ i < j, scan.idbuf.get (idbufEntry i) ≠ 0) :
    (scan.note j).hasnonzero = true ↔
      ∃ i < j + 1, (scan.note j).idbuf.get (idbufEntry i) ≠ 0 := by
  unfold IdScan.note
  split
  case isTrue hentry => exact ⟨fun _ => ⟨j, by omega, hentry⟩, fun _ => rfl⟩
  case isFalse hentry =>
      rw [hnonzero]
      constructor
      · intro ⟨i, hi, hsome⟩
        exact ⟨i, by omega, hsome⟩
      · intro ⟨i, hi, hsome⟩
        refine ⟨i, ?_, hsome⟩
        by_contra hlast
        have heq : i = j := by omega
        rw [heq] at hsome
        exact hentry hsome

@[simp] theorem note_idbuf (scan : IdScan) (j : Nat) : (scan.note j).idbuf = scan.idbuf := by
  unfold IdScan.note
  split <;> rfl

@[simp] theorem note_iddirty (scan : IdScan) (j : Nat) :
    (scan.note j).iddirty = scan.iddirty := by
  unfold IdScan.note
  split <;> rfl

theorem truncateEntry_wp {scan : IdScan} (hloaded : Loaded fs sv ino)
    (hidblock : (fs.vnode sv).svI.get sfiIndirect = idblock) (hidmapped : idblock ≠ 0)
    (hj : j < 128) (hscan : Scanning n live sv ino idblock blocklen fs j scan fs') :
    Prog.Returns (truncateEntry blocklen j scan)
      (Scanning n live sv ino idblock blocklen fs (j + 1)) fs' := by
  have hfiles := hscan.cut.files
  have hloaded' := hloaded.only hscan.cut.only
  have hbuffer : (fs'.withBlock idblock scan.idbuf).disk idblock = scan.idbuf :=
    Function.update_self _ _ _
  have hidblock' : ((fs'.withBlock idblock scan.idbuf).vnode sv).svI.get sfiIndirect = idblock := by
    show (fs'.vnode sv).svI.get sfiIndirect = idblock
    rw [hscan.vnode, hidblock]
  have hblock : (fs'.withBlock idblock scan.idbuf).blockAt ino (.data (15 + j)) =
      scan.idbuf.get (idbufEntry j) := by
    rw [SfsFs.blockAt, hloaded'.inode hfiles, dataBlock, if_neg (by omega), hidblock',
      if_pos ⟨by omega, hidmapped⟩, show 15 + j - 15 = j by omega, hbuffer]
  unfold truncateEntry Prog.Returns
  rw [Prog.wp_ite]
  split
  case isTrue hfree =>
      have hlive := hloaded'.alive hfiles
      have hdrop := hfiles.dropEntry hloaded' hj hidblock' hidmapped (by rw [hbuffer]) hfree.2
      rw [hbuffer] at hdrop
      have hsame : (((fs'.withBlock idblock scan.idbuf).withUnmark
          (scan.idbuf.get (idbufEntry j))).withBlock idblock (scan.idbuf.set (idbufEntry j) 0)) =
          (fs'.withUnmark (scan.idbuf.get (idbufEntry j))).withBlock idblock
            (scan.idbuf.set (idbufEntry j) 0) := by
        simp only [SfsFs.withBlock, SfsFs.withUnmark, Function.update_idem]
      rw [hsame] at hdrop
      rw [Prog.wp_bind]
      refine wp_sfsBfree (hfiles.in_map hlive hblock hfree.2) (hfiles.in_use hlive hblock hfree.2)
        ?_
      rw [Prog.wp_pure]
      refine ⟨?_, hscan.disk, hscan.vnode, ?_, note_nonzero ?_⟩
      · rw [note_idbuf]
        refine (hscan.cut.trans hdrop).congr ?_
        intro k _
        rw [← Bool.decide_and, decide_eq_decide]
        omega
      · intro hclean
        rw [note_iddirty] at hclean
        cases hclean
      · rw [hscan.nonzero]
        constructor
        · rintro ⟨i, hi, hsome⟩
          refine ⟨i, hi, ?_⟩
          rw [entry_set_entry _ hj (by omega) (by decide), if_neg (by omega)]
          exact hsome
        · rintro ⟨i, hi, hsome⟩
          refine ⟨i, hi, ?_⟩
          rw [entry_set_entry _ hj (by omega) (by decide), if_neg (by omega)] at hsome
          exact hsome
  case isFalse hkept =>
      rw [Prog.wp_pure]
      refine ⟨?_, hscan.disk, hscan.vnode, ?_, note_nonzero hscan.nonzero⟩
      · rw [note_idbuf]
        refine hscan.cut.congr ?_
        intro k hmapped
        rw [decide_eq_decide]
        have hthere := hscan.cut.blocks (15 + j)
        rw [if_pos (by simp), hblock] at hthere
        by_cases hk : k = 15 + j
        · rw [hk, ← hthere] at hmapped
          have hshort : ¬ blocklen < 15 + j := fun hlt => hkept ⟨hlt, hmapped⟩
          omega
        · omega
      · rw [note_iddirty, note_idbuf]
        exact hscan.clean

theorem truncateEntries_wp (h : Files n live fs) (hloaded : Loaded fs sv ino)
    (hidblock : (fs.vnode sv).svI.get sfiIndirect = idblock) (hidmapped : idblock ≠ 0)
    (blocklen : Nat) :
    Prog.Returns (Prog.forFrom (truncateEntry blocklen) 128 0 ⟨fs.disk idblock, false, false⟩)
      (Scanning n live sv ino idblock blocklen fs 128) fs := by
  refine Prog.wp_forFrom (Scanning n live sv ino idblock blocklen fs) ?_ ?_
  · intro j scan fs' _ hj hscan
    exact truncateEntry_wp hloaded hidblock hidmapped (by omega) hscan
  · have hself : fs.withBlock idblock (fs.disk idblock) = fs := by
      rw [SfsFs.withBlock, Function.update_eq_self]
    refine ⟨?_, rfl, rfl, fun _ => rfl, ?_⟩
    · rw [hself]
      refine (Cut.refl h sv ino).congr ?_
      intro k _
      rw [decide_eq_true_eq]
      omega
    · simp

theorem data_lt (hmapped : fs.blockAt ino (.data k) ≠ 0) : k < 143 := by
  by_contra hpast
  apply hmapped
  rw [SfsFs.blockAt, dataBlock, if_neg (by omega), if_neg (fun hin => hpast hin.1)]

/-- The indirect block is given back. -/
theorem Scanning.giveBack {scan : IdScan}
    (hscan : Scanning n live sv ino idblock blocklen fs 128 scan fs') (hloaded : Loaded fs sv ino)
    (hidblock : (fs'.vnode sv).svI.get sfiIndirect = idblock) (hidmapped : idblock ≠ 0)
    (hempty : scan.hasnonzero = false) :
    Cut n live sv ino (fun k => decide (k < 15 ∨ 15 + 128 ≤ k ∨ k ≤ blocklen)) fs
      ((fs'.withUnmark idblock).withInode sv ((fs'.vnode sv).svI.set sfiIndirect 0)) := by
  have hfiles := hscan.cut.files
  have hloaded' := hloaded.only hscan.cut.only
  have hentries : ∀ j < 128,
      ((fs'.withBlock idblock scan.idbuf).disk idblock).get (idbufEntry j) = 0 := by
    intro j hj
    have hbuffer : (fs'.withBlock idblock scan.idbuf).disk idblock = scan.idbuf :=
      Function.update_self _ _ _
    rw [hbuffer]
    by_contra hsome
    rw [hscan.nonzero.mpr ⟨j, hj, hsome⟩] at hempty
    cases hempty
  have hdrop := hfiles.dropIndirect hloaded' hidblock hidmapped hentries
  -- the block is free now, so what the disk has there does not matter
  have hscribble := hdrop.files.scribble (hloaded'.only hdrop.only) (b := idblock) ?_
    (fs'.disk idblock)
  · have hsame : (((fs'.withBlock idblock scan.idbuf).withUnmark idblock).withInode sv
        (((fs'.withBlock idblock scan.idbuf).vnode sv).svI.set sfiIndirect 0)).withBlock idblock
          (fs'.disk idblock) =
        (fs'.withUnmark idblock).withInode sv ((fs'.vnode sv).svI.set sfiIndirect 0) := by
      simp only [SfsFs.withBlock, SfsFs.withUnmark, SfsFs.withInode, Function.update_idem,
        Function.update_eq_self]
    rw [hsame] at hscribble
    refine ((hscan.cut.trans hdrop).trans hscribble).congr ?_
    intro k _
    rw [Bool.and_true, Bool.and_true]
  · intro p hp hat
    have hset := hdrop.files.isset hp
    rw [hat] at hset
    have hclear : (fs'.sfsFreemap.unmark idblock).bitmapIsset idblock = true := hset
    rw [Bitmap.isset_unmark] at hclear
    simp at hclear

/-- After the loop the indirect block is written back, or given back when it is empty. -/
theorem truncateIndirect_wp (h : Files n live fs) (hloaded : Loaded fs sv ino)
    (blocklen : Nat) :
    Prog.Returns (truncateIndirect sv blocklen)
      (fun _ fs' => Cut n live sv ino
          (fun k => decide (k < 15 ∨ 142 ≤ blocklen ∨ k ≤ blocklen)) fs fs' ∧
        (blocklen < 142 → (∀ k, 15 ≤ k → fs'.blockAt ino (.data k) = 0) →
          fs'.blockAt ino .indirect = 0) ∧
        (142 ≤ blocklen → fs'.blockAt ino .indirect = fs.blockAt ino .indirect)) fs := by
  have hlive := hloaded.alive h
  have hinode := hloaded.inode h
  have hindirect : fs.blockAt ino .indirect = (fs.vnode sv).svI.get sfiIndirect := by
    rw [SfsFs.blockAt, hinode]
  generalize hidblock : (fs.vnode sv).svI.get sfiIndirect = idblock at hindirect
  simp only [truncateIndirect, ↓Prog.wp_bind, ↓Prog.wp_read, ↓Prog.wp_when, hidblock]
  split
  case isFalse hskip =>
      refine ⟨(Cut.refl h sv ino).congr ?_, ?_, fun _ => trivial⟩
      · intro k hmapped
        rw [decide_eq_true_eq]
        by_cases hk : k < 15
        · exact Or.inl hk
        · refine Or.inr (Or.inl ?_)
          by_contra hshort
          have hnone : idblock = 0 := by
            by_contra hsome
            exact hskip ⟨by omega, hsome⟩
          rw [SfsFs.blockAt, hinode, dataBlock, if_neg hk, hidblock, if_neg (by simp [hnone])]
            at hmapped
          exact hmapped rfl
      · intro hshort _
        rw [hindirect]
        by_contra hsome
        exact hskip ⟨hshort, hsome⟩
  case isTrue hgo =>
      obtain ⟨hshort, hidmapped⟩ := hgo
      refine wp_sfsRblock _ (h.on_device hlive hindirect hidmapped) h.quiet ?_
      refine Prog.Returns.mono (truncateEntries_wp h hloaded hidblock hidmapped blocklen) ?_
      intro scan fs' hscan
      have hidblock' : (fs'.vnode sv).svI.get sfiIndirect = idblock := by
        rw [hscan.vnode, hidblock]
      have hkeep : ∀ k, fs.blockAt ino (.data k) ≠ 0 →
          decide (k < 15 ∨ 142 ≤ blocklen ∨ k ≤ blocklen) =
            decide (k < 15 ∨ 15 + 128 ≤ k ∨ k ≤ blocklen) := by
        intro k hmapped
        have hrange := data_lt hmapped
        rw [decide_eq_decide]
        omega
      rw [Prog.wp_ite]
      split
      case isTrue hempty =>
          have hfiles := hscan.cut.files
          have hlive' := (hloaded.only hscan.cut.only).alive hfiles
          have hblock : (fs'.withBlock idblock scan.idbuf).blockAt ino .indirect = idblock := by
            rw [SfsFs.blockAt, (hloaded.only hscan.cut.only).inode hfiles]
            exact hidblock'
          have hback := hscan.giveBack hloaded hidblock' hidmapped hempty
          simp only [↓Prog.wp_bind, wp_setInode]
          refine wp_sfsBfree (hfiles.in_map hlive' hblock hidmapped)
            (hfiles.in_use hlive' hblock hidmapped) ?_
          refine ⟨hback.congr hkeep, fun _ _ => ?_, fun hlong => by omega⟩
          show (((fs'.withUnmark idblock).withInode sv
            ((fs'.vnode sv).svI.set sfiIndirect 0)).inode ino).get sfiIndirect = 0
          rw [(hloaded.only hback.only).inode hback.files, vnode_withInode]
          exact indirect_set_indirect _ (by decide)
      case isFalse hsome =>
          rw [Bool.not_eq_false] at hsome
          obtain ⟨i, hi, hentry⟩ := hscan.nonzero.mp hsome
          have hstays : (∀ k, 15 ≤ k →
              (fs'.withBlock idblock scan.idbuf).blockAt ino (.data k) = 0) → False := by
            intro hnone
            have hzero := hnone (15 + i) (by omega)
            have hbuffer : (fs'.withBlock idblock scan.idbuf).disk idblock = scan.idbuf :=
              Function.update_self _ _ _
            have hinode' : (fs'.withBlock idblock scan.idbuf).inode ino = (fs'.vnode sv).svI :=
              (hloaded.only hscan.cut.only).inode hscan.cut.files
            rw [SfsFs.blockAt, hinode', dataBlock, if_neg (by omega), hidblock',
              if_pos ⟨by omega, hidmapped⟩, show 15 + i - 15 = i by omega, hbuffer] at hzero
            exact hentry hzero
          rw [Prog.wp_when]
          split
          case isTrue hdirty =>
              have hfiles := hscan.cut.files
              have hloaded' := hloaded.only hscan.cut.only
              have hblock : (fs'.withBlock idblock scan.idbuf).blockAt ino .indirect = idblock := by
                rw [SfsFs.blockAt, hloaded'.inode hfiles]
                exact hidblock'
              refine wp_sfsWblock _ (hfiles.on_device (hloaded'.alive hfiles) hblock hidmapped) ?_
              rw [@written_of_quiet fs' hfiles.quiet]
              exact ⟨hscan.cut.congr hkeep, fun _ hnone => (hstays hnone).elim,
                fun hlong => by omega⟩
          case isFalse hclean =>
              have hsame : fs'.withBlock idblock scan.idbuf = fs' := by
                rw [hscan.clean (by simpa using hclean), ← hscan.disk, SfsFs.withBlock,
                  Function.update_eq_self]
              have hcut := hscan.cut
              rw [hsame] at hcut hstays
              exact ⟨hcut.congr hkeep, fun _ hnone => (hstays hnone).elim, fun hlong => by omega⟩

/-- The blocks that `sfs_truncate` leaves in a file.  In the indirect block it goes wrong by
one: the block after the last stays, and so does the whole block when only its last entry is
past the new end. -/
def kept (blocklen k : Nat) : Bool :=
  decide (if k < 15 then k < blocklen else k ≤ blocklen ∨ 142 ≤ blocklen)

/-- What `sfs_truncate` leaves. -/
structure Truncated (n : Nat) (live : Nat → Bool) (sv ino blocklen len : Nat) (fs fs' : SfsFs) :
    Prop where
  files : Files n live fs'
  only : OnlyFile live sv fs fs'
  size : fs'.size sv = len
  file : ∀ k, fs'.file ino k = if kept blocklen k = true then fs.file ino k else Record.zeros
  blocks : ∀ k, fs'.blockAt ino (.data k) =
    if kept blocklen k = true then fs.blockAt ino (.data k) else 0
  indirect : fs'.blockAt ino .indirect = fs.blockAt ino .indirect ∨
    fs'.blockAt ino .indirect = 0
  emptied : blocklen < 142 → (∀ k, 15 ≤ k → fs'.blockAt ino (.data k) = 0) →
    fs'.blockAt ino .indirect = 0
  stays : 142 ≤ blocklen → fs'.blockAt ino .indirect = fs.blockAt ino .indirect
  marks : MarksFollow ino fs fs'

theorem sfsTruncate_wp (h : Files n live fs) (hloaded : Loaded fs sv ino) (hlen : len < 2 ^ 32) :
    Prog.Returns (sfsTruncate sv len)
      (fun _ fs' => Truncated n live sv ino (blocksOf len) len fs fs') fs := by
  unfold sfsTruncate Prog.Returns
  generalize blocksOf len = blocklen
  rw [Prog.wp_bind]
  refine Prog.Returns.mono (truncateDirects_wp h hloaded blocklen) ?_
  intro _ fs₁ ⟨hdirect, hsame⟩
  have hloaded₁ := hloaded.only hdirect.only
  rw [Prog.wp_bind]
  refine Prog.Returns.mono (truncateIndirect_wp hdirect.files hloaded₁ blocklen) ?_
  intro _ fs₂ ⟨hentries, hindirect, hstays⟩
  have hloaded₂ := hloaded₁.only hentries.only
  have hcut : Cut n live sv ino (kept blocklen) fs fs₂ := by
    refine (hdirect.trans hentries).congr ?_
    intro k _
    unfold kept
    rw [← Bool.decide_and, decide_eq_decide]
    split
    · omega
    · omega
  have hresize := hentries.files.resize hloaded₂ hlen
  rw [wp_setInode]
  have hblocks : ∀ slot, (fs₂.withInode sv ((fs₂.vnode sv).svI.set sfiSize len)).blockAt ino slot =
      fs₂.blockAt ino slot := by
    intro slot
    have hinode := hentries.files.inode_withInode hloaded₂ ((fs₂.vnode sv).svI.set sfiSize len)
    have hbefore := hloaded₂.inode hentries.files
    cases slot with
    | inode => rfl
    | indirect =>
        simp only [SfsFs.blockAt]
        rw [hinode, hbefore, header_sfiSize.indirect]
    | data k =>
        simp only [SfsFs.blockAt]
        rw [hinode, hbefore]
        exact dataBlock_set_header _ _ header_sfiSize len k
  have hmarks : MarksFollow ino fs₂
      (fs₂.withInode sv ((fs₂.vnode sv).svI.set sfiSize len)) :=
    .congr hblocks (fun _ => rfl)
  refine ⟨hresize.files, hcut.only.trans hresize.only h.dead, hresize.size, ?_, ?_, ?_, ?_, ?_,
    hcut.marks.trans hmarks hcut.slots (fun slot => Or.inl (hblocks slot))⟩
  · intro k
    rw [hresize.file, hcut.file]
  · intro k
    rw [hblocks, hcut.blocks]
  · rw [hblocks]
    exact hcut.indirect
  · intro hshort hnone
    rw [hblocks]
    refine hindirect hshort ?_
    intro k hk
    rw [← hblocks]
    exact hnone k hk
  · intro hlong
    rw [hblocks, hstays hlong, hsame]

end OS161.Sfs
