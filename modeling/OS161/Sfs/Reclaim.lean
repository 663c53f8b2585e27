import OS161.Sfs.Volume

namespace OS161.Sfs

open OS161.Data
open OS161.Kern
open OS161.Lib
open OS161.Vfs

/-! References given back: the inode is synced, and a file without links goes with the last
of them. -/

variable {fs fs' fs'' : SfsFs} {live : Nat → Bool} {count refs : Nat → Nat}
variable {sv ino n : Nat}

/-! Syncing an inode. -/

/-- The inode is on the disk. -/
structure InodeSynced (n : Nat) (live : Nat → Bool) (sv ino : Nat) (fs fs' : SfsFs) : Prop where
  files : Files n live fs'
  only : OnlyFile live sv fs fs'
  stays : Stays live fs fs'
  disk : fs'.disk ino = (fs'.vnode sv).svI
  freemap : fs'.sfsFreemap = fs.sfsFreemap

theorem Files.synced (h : Files n live fs) (hloaded : Loaded fs sv ino) :
    InodeSynced n live sv ino fs ((fs.withBlock ino (fs.vnode sv).svI).withVnode sv
      { fs.vnode sv with svDirty := false }) := by
  have hwrite := h.onlyFile_own hloaded (@rfl _ (fs.blockAt ino .inode)) (fs.vnode sv).svI
  have hown := h.disk_own hloaded (@rfl _ (fs.blockAt ino .inode)) (fs.vnode sv).svI
  have hdisk : (fs.withBlock ino (fs.vnode sv).svI).disk ino = (fs.vnode sv).svI :=
    Function.update_self _ _ _
  generalize hfs' : (fs.withBlock ino (fs.vnode sv).svI).withVnode sv
    { fs.vnode sv with svDirty := false } = fs'
  have hvnode : fs'.vnode sv = { fs.vnode sv with svDirty := false } := by
    rw [← hfs', vnode_withVnode]
  have honly : OnlyFile live sv fs fs' := by
    refine ⟨by rw [← hfs']; rfl, ?_, by rw [hvnode], by rw [hvnode], by rw [hvnode],
      by rw [hvnode], by rw [hvnode], ?_⟩
    · intro other hother
      rw [← hfs', vnode_withVnode_of_ne hother]
      rfl
    · rw [← hfs']
      exact hwrite.disk
  have hinode : fs'.inode ino = (fs.vnode sv).svI := by
    have hafter := honly.inode_own h hloaded.mem
    rw [hloaded.ino, hvnode] at hafter
    exact hafter
  have hlive := hloaded.alive h
  have hstays : Stays live fs fs' := by
    refine .of_disk ?_ ?_
    · intro other hother
      by_cases heq : other = ino
      · rw [heq, hinode, hloaded.inode h]
      · exact honly.inode hother (by rw [hloaded.ino]; exact heq) (h.ne_zero hother)
    · intro other slot hother hslot hblock
      by_cases heq : other = ino
      · rw [heq] at hblock ⊢
        rw [← hfs']
        exact hown slot hslot hblock
      · exact honly.disk other slot hother (by rw [hloaded.ino]; exact heq) hblock
  have hsynced : fs'.disk ino = (fs'.vnode sv).svI := by
    rw [hvnode, ← hfs']
    exact hdisk
  refine ⟨?_, honly, hstays, hsynced, by rw [← hfs']; rfl⟩
  refine h.edit hloaded.mem honly (h.guarded.congr ?_ ?_ ?_ ?_) ?_ ?_ ?_
  · rw [← hfs']
    rfl
  · rw [← hfs']
    rfl
  · rw [← hfs']
    rfl
  · rw [← hfs']
    exact fun _ hset => hset
  · rw [← hfs']
    exact h.quiet
  · intro _
    rw [hloaded.ino]
    exact hsynced
  · rw [hstays.held]
    refine h.holding.mono ?_
    intro p _ hfits
    rw [← hfs']
    exact hfits

theorem sfsSyncInode_wp (h : Files n live fs) (hloaded : Loaded fs sv ino) :
    Prog.Returns (sfsSyncInode sv) (fun _ fs' => InodeSynced n live sv ino fs fs') fs := by
  unfold sfsSyncInode Prog.Returns
  simp only [↓Prog.wp_bind, ↓Prog.wp_get, ↓Prog.wp_when]
  split
  case isFalse hclean =>
      refine ⟨h, .refl live sv fs, .refl live fs, ?_, rfl⟩
      have hdisk := h.clean sv hloaded.mem (by simpa using hclean)
      rw [hloaded.ino] at hdisk
      exact hdisk
  case isTrue hdirty =>
      have hlive := hloaded.alive h
      rw [hloaded.ino]
      refine wp_sfsWblock _ (h.on_device hlive (@rfl _ (fs.blockAt ino .inode))
        (h.ne_zero hlive)) ?_
      rw [written_of_quiet h.quiet, wp_updateVnode]
      exact h.synced hloaded

/-! The last reference. -/

/-- The inodes there are once the reference is given back. -/
def remaining (live : Nat → Bool) (count refs : Nat → Nat) (sv ino : Nat) : Nat → Bool :=
  if refs sv = 1 ∧ count ino = 0 then Function.update live ino false else live

/-- One reference less to a vnode. -/
def oneLess (refs : Nat → Nat) (sv : Nat) : Nat → Nat := Function.update refs sv (refs sv - 1)

/-- A reference has been given back. -/
structure GivenBack (n : Nat) (live : Nat → Bool) (count refs : Nat → Nat) (sv ino : Nat)
    (fs fs' : SfsFs) : Prop where
  volume : Volume n (remaining live count refs sv ino) count (oneLess refs sv) fs'
  keeps : Keeps (remaining live count refs sv ino) fs fs'
  table : fs'.sfsVnodes = if refs sv = 1 then fs.sfsVnodes.erase sv else fs.sfsVnodes
  vnode : ∀ other, other ≠ sv → fs'.vnode other = fs.vnode other
  svIno : (fs'.vnode sv).svIno = (fs.vnode sv).svIno
  /-- The blocks of a file that goes are free. -/
  freed : refs sv = 1 → count ino = 0 → ∀ i, fs'.sfsFreemap.bitmapIsset i = true ↔
    fs.sfsFreemap.bitmapIsset i = true ∧ ∀ slot, fs.blockAt ino slot = i → i = 0
  kept : ¬ (refs sv = 1 ∧ count ino = 0) → fs'.sfsFreemap = fs.sfsFreemap

theorem oneLess_self (refs : Nat → Nat) (sv : Nat) : oneLess refs sv sv = refs sv - 1 :=
  Function.update_self _ _ _

theorem oneLess_of_ne (hne : other ≠ sv) (refs : Nat → Nat) :
    oneLess refs sv other = refs other :=
  Function.update_of_ne hne _ _

/-- The vnode leaves the table with its last reference. -/
theorem Volume.withoutVnode {live' : Nat → Bool} (h : Volume n live count refs fs)
    (hlast : refs sv = 1) (hfiles : Files n live' fs') (hstays : Stays live' fs fs')
    (hfewer : ∀ ino, live' ino = true → live ino = true) (hroot : live' 1 = true)
    (hunlinked : ∀ ino, ino ≠ 0 → live' ino = false → count ino = 0)
    (htable : fs'.sfsVnodes = fs.sfsVnodes.erase sv) (hvnode : fs'.vnode = fs.vnode) :
    Volume n live' count (oneLess refs sv) fs' := by
  have hmem : ∀ other, other ∈ fs'.sfsVnodes ↔ other ≠ sv ∧ other ∈ fs.sfsVnodes := by
    intro other
    rw [htable]
    exact h.files.nodup.mem_erase_iff
  refine h.stays hfiles hstays hfewer hroot hunlinked ?_ ?_ ?_
  · intro other hother
    rw [hvnode]
    exact h.ops other ((hmem other).mp hother).2
  · intro other hother
    obtain ⟨hne, hin⟩ := (hmem other).mp hother
    rw [hvnode, oneLess_of_ne hne]
    exact h.refcount other hin
  · intro other
    rw [hmem]
    by_cases hown : other = sv
    · rw [hown, oneLess_self, hlast]
      simp
    · rw [oneLess_of_ne hown, and_iff_right hown]
      exact h.referenced other

/-- The blocks of the file are given back, and its inode does not name any. -/
theorem Truncated.bare (hcut : Truncated n live sv ino 0 0 fs fs') (hloaded : Loaded fs sv ino) :
    Bare (fs'.vnode sv).svI := by
  have hinode := (hloaded.only hcut.only).inode hcut.files
  have hnone : ∀ k, fs'.blockAt ino (.data k) = 0 := by
    intro k
    rw [hcut.blocks, if_neg]
    unfold kept
    rw [decide_eq_true_eq]
    split
    · omega
    · omega
  constructor
  · intro i hi
    have hblock := hnone i
    rw [SfsFs.blockAt, hinode, dataBlock, if_pos hi] at hblock
    exact hblock
  · have hblock := hcut.emptied (by decide) (fun k _ => hnone k)
    rw [SfsFs.blockAt, hinode] at hblock
    exact hblock

theorem blocksOf_zero : blocksOf 0 = 0 := by
  unfold blocksOf
  decide

theorem remaining_gone (hgone : refs sv = 1 ∧ count ino = 0) :
    remaining live count refs sv ino = Function.update live ino false := by
  rw [remaining, if_pos hgone]

theorem remaining_kept (hkept : ¬ (refs sv = 1 ∧ count ino = 0)) :
    remaining live count refs sv ino = live := by
  rw [remaining, if_neg hkept]

/-- Nobody holds the file and no name leads to it. -/
theorem Volume.discard (h : Volume n live count refs fs) (hloaded : Loaded fs sv ino)
    (hroot : ino ≠ 1) (hlast : refs sv = 1) (hunlinked : count ino = 0) :
    Prog.Returns (do
        vopTruncate sv 0
        sfsSyncInode sv
        discardVnode sv) (fun _ fs' => GivenBack n live count refs sv ino fs fs') fs := by
  have hgone : remaining live count refs sv ino = Function.update live ino false :=
    remaining_gone ⟨hlast, hunlinked⟩
  unfold Prog.Returns
  simp only [vopTruncate, ↓Prog.wp_bind, ↓Prog.wp_get]
  rw [h.ops_loaded hloaded, opsOf, if_neg hroot]
  have htruncate := @sfsTruncate_wp fs live sv ino n 0 h.files hloaded (by decide)
  rw [blocksOf_zero] at htruncate
  refine Prog.Returns.mono htruncate ?_
  intro _ fs₁ hcut
  have hvolume₁ := h.only hloaded hcut.only hcut.files
  have hloaded₁ := hloaded.only hcut.only
  refine Prog.Returns.mono (sfsSyncInode_wp hcut.files hloaded₁) ?_
  intro _ fs₂ hsynced
  have hvolume₂ := hvolume₁.only hloaded₁ hsynced.only hsynced.files
  have hloaded₂ := hloaded₁.only hsynced.only
  have hbare : Bare (fs₂.vnode sv).svI := by
    have hsame : (fs₂.vnode sv).svI = (fs₁.vnode sv).svI := by
      rw [← hloaded₂.inode hsynced.files, ← hloaded₁.inode hcut.files]
      exact hsynced.stays.inode ino (hloaded₁.alive hcut.files)
    rw [hsame]
    exact hcut.bare hloaded
  have hlive₂ := hloaded₂.alive hsynced.files
  simp only [discardVnode, ↓Prog.wp_bind, ↓Prog.wp_get, ↓Prog.wp_when]
  rw [hvolume₂.linkcount_loaded hloaded₂, if_pos hunlinked, hloaded₂.ino]
  have hzero := hsynced.files.ne_zero hlive₂
  refine wp_sfsBfree (hsynced.files.in_map hlive₂ (@rfl _ (fs₂.blockAt ino .inode)) hzero)
    (hsynced.files.in_use hlive₂ (@rfl _ (fs₂.blockAt ino .inode)) hzero) ?_
  rw [Prog.wp_assert, if_pos hloaded₂.mem, Prog.wp_modify]
  obtain ⟨hfiles, hstays⟩ := hsynced.files.discard hloaded₂ hbare hroot
  have hne : ∀ other, Function.update live ino false other = true →
      other ≠ ino ∧ live other = true := by
    intro other hother
    by_cases hown : other = ino
    · rw [hown, Function.update_self] at hother
      cases hother
    · rw [Function.update_of_ne hown] at hother
      exact ⟨hown, hother⟩
  have hkeeps₁ : Keeps (Function.update live ino false) fs fs₁ := by
    have hother : ∀ other, Function.update live ino false other = true →
        live other = true ∧ other ≠ (fs.vnode sv).svIno ∧ other ≠ 0 := by
      intro other halive
      obtain ⟨hown, halive'⟩ := hne other halive
      rw [hloaded.ino]
      exact ⟨halive', hown, h.files.ne_zero halive'⟩
    refine ⟨?_, ?_, ?_⟩
    · intro other slot halive
      obtain ⟨hlive, hown, hnonzero⟩ := hother other halive
      exact hcut.only.blockAt hlive hown hnonzero slot
    · intro other halive
      obtain ⟨hlive, hown, hnonzero⟩ := hother other halive
      exact hcut.only.file hlive hown hnonzero
    · intro other halive
      obtain ⟨hlive, hown, hnonzero⟩ := hother other halive
      rw [hcut.only.inode hlive hown hnonzero]
  have hkeeps₂ := hsynced.stays.toKeeps.mono (fun other hother => (hne other hother).2)
  refine ⟨?_, ?_, ?_, ?_, ?_, ?_, ?_⟩
  · rw [hgone]
    refine hvolume₂.withoutVnode hlast hfiles hstays (fun other hother => (hne other hother).2)
      ?_ ?_ rfl rfl
    · rw [Function.update_of_ne (Ne.symm hroot)]
      exact h.root
    · intro other hnonzero hdead
      by_cases hown : other = ino
      · rw [hown]
        exact hunlinked
      · rw [Function.update_of_ne hown] at hdead
        exact h.unlinked other hnonzero hdead
  · rw [hgone]
    exact (hkeeps₁.trans hkeeps₂).trans hstays.toKeeps
  · rw [if_pos hlast, ← hcut.only.vnodes, ← hsynced.only.vnodes]
    rfl
  · exact fun other hother =>
      (hsynced.only.vnode other hother).trans (hcut.only.vnode other hother)
  · exact hsynced.only.ino.trans hcut.only.ino
  · intro _ _ i
    show (fs₂.sfsFreemap.unmark ino).bitmapIsset i = true ↔ _
    rw [Bitmap.isset_unmark, hsynced.freemap, Bool.and_eq_true, hcut.marks i, decide_eq_true_eq,
      and_assoc, and_congr_right_iff]
    intro _
    have hinode₁ := hloaded₁.inode hcut.files
    constructor
    · rintro ⟨hfollow, hnot⟩ slot hat
      have hafter := hfollow slot hat
      cases slot with
      | inode => exact absurd hat.symm hnot
      | indirect =>
          rw [SfsFs.blockAt, hinode₁, (hcut.bare hloaded).indirect] at hafter
          exact hafter.symm
      | data k =>
          rw [SfsFs.blockAt, hinode₁, (hcut.bare hloaded).dataBlock] at hafter
          exact hafter.symm
    · intro hall
      refine ⟨?_, ?_⟩
      · intro slot hat
        have hempty := hall slot hat
        cases slot with
        | inode => exact absurd (hat.trans hempty) hzero
        | indirect =>
            rw [SfsFs.blockAt, hinode₁, (hcut.bare hloaded).indirect, hempty]
        | data k =>
            rw [SfsFs.blockAt, hinode₁, (hcut.bare hloaded).dataBlock, hempty]
      · intro heq
        have hempty := hall .inode heq.symm
        rw [hempty] at heq
        exact hzero heq.symm
  · intro hkept
    exact absurd ⟨hlast, hunlinked⟩ hkept

theorem Volume.release (h : Volume n live count refs fs) (hloaded : Loaded fs sv ino)
    (hlast : refs sv = 1) (hlinked : count ino ≠ 0) :
    Prog.Returns (do
        sfsSyncInode sv
        discardVnode sv) (fun _ fs' => GivenBack n live count refs sv ino fs fs') fs := by
  have hkept : ¬ (refs sv = 1 ∧ count ino = 0) := fun hgone => hlinked hgone.2
  have hremaining : remaining live count refs sv ino = live := remaining_kept hkept
  unfold Prog.Returns
  rw [Prog.wp_bind]
  refine Prog.Returns.mono (sfsSyncInode_wp h.files hloaded) ?_
  intro _ fs₁ hsynced
  have hvolume₁ := h.only hloaded hsynced.only hsynced.files
  have hloaded₁ := hloaded.only hsynced.only
  simp only [discardVnode, ↓Prog.wp_bind, ↓Prog.wp_get, ↓Prog.wp_when]
  rw [hvolume₁.linkcount_loaded hloaded₁, if_neg hlinked, Prog.wp_assert, if_pos hloaded₁.mem,
    Prog.wp_modify]
  obtain ⟨hfiles, hstays⟩ := hsynced.files.release hloaded₁ hsynced.disk
  refine ⟨?_, ?_, ?_, ?_, ?_, ?_, ?_⟩
  · rw [hremaining]
    exact hvolume₁.withoutVnode hlast hfiles hstays (fun _ hlive => hlive) h.root h.unlinked
      rfl rfl
  · rw [hremaining]
    exact hsynced.stays.toKeeps.trans hstays.toKeeps
  · rw [if_pos hlast, ← hsynced.only.vnodes]
  · exact hsynced.only.vnode
  · exact hsynced.only.ino
  · intro _ hnone
    exact absurd hnone hlinked
  · exact fun _ => hsynced.freemap

theorem sfsReclaim_wp (h : Volume n live count refs fs) (hloaded : Loaded fs sv ino)
    (hroot : 0 < count 1) (hlast : refs sv = 1) :
    Prog.Returns (sfsReclaim sv) (fun _ fs' => GivenBack n live count refs sv ino fs fs') fs := by
  unfold sfsReclaim Prog.Returns
  simp only [↓Prog.wp_bind, ↓Prog.wp_get, ↓Prog.wp_ite, ↓Prog.wp_when]
  rw [h.refcount sv hloaded.mem, hlast, if_neg (by decide), h.linkcount_loaded hloaded]
  split
  case isTrue hunlinked =>
      have hne : ino ≠ 1 := by
        intro heq
        rw [heq] at hunlinked
        omega
      have hdiscard := h.discard hloaded hne hlast hunlinked
      unfold Prog.Returns at hdiscard
      simp only [↓Prog.wp_bind] at hdiscard
      exact hdiscard
  case isFalse hlinked =>
      have hrelease := h.release hloaded hlast hlinked
      unfold Prog.Returns at hrelease
      rw [Prog.wp_bind] at hrelease
      exact hrelease

/-- A reference is given back; the root keeps its inode. -/
theorem vopDecref_wp (h : Volume n live count refs fs) (hloaded : Loaded fs sv ino)
    (hroot : 0 < count 1) :
    Prog.Returns (vopDecref sv) (fun _ fs' => GivenBack n live count refs sv ino fs fs') fs := by
  have hrefs := h.refcount sv hloaded.mem
  have hpos := (h.referenced sv).mp hloaded.mem
  unfold vopDecref Prog.Returns
  simp only [↓Prog.wp_bind, ↓Prog.wp_get, ↓Prog.wp_assert, ↓Prog.wp_ite]
  rw [hrefs, if_pos hpos]
  split
  case isTrue hmore =>
      have hkept : ¬ (refs sv = 1 ∧ count ino = 0) := by omega
      have hremaining : remaining live count refs sv ino = live := remaining_kept hkept
      rw [wp_updateVnode, hrefs]
      obtain ⟨hvolume, hkeeps, -⟩ := h.recount hloaded (show 0 < refs sv - 1 by omega)
      refine ⟨?_, ?_, ?_, ?_, ?_, fun hlast => by omega, fun _ => rfl⟩
      · rw [hremaining]
        exact hvolume
      · rw [hremaining]
        exact hkeeps
      · rw [if_neg (by omega)]
        rfl
      · exact fun other hother => vnode_withVnode_of_ne hother _
      · rw [vnode_withVnode]
  case isFalse hlast =>
      rw [Prog.wp_attempt]
      exact Prog.wp_mono (sfsReclaim_wp h hloaded hroot (by omega)) (fun _ _ hdone => hdone)
        (fun _ _ hfails => hfails.elim) (fun _ hbad => hbad)

theorem oneLess_oneMore (refs : Nat → Nat) (sv : Nat) : oneLess (oneMore refs sv) sv = refs := by
  funext other
  by_cases hown : other = sv
  · rw [hown, oneLess_self, oneMore_self, Nat.add_sub_cancel]
  · rw [oneLess_of_ne hown, oneMore_of_ne hown]

/-- The reference to a file that has a name is given back. -/
theorem Volume.giveBack (h : Volume n live count (oneMore refs sv) fs)
    (hloaded : Loaded fs sv ino) (hroot : 0 < count 1) (hlinked : 0 < count ino) :
    Prog.Returns (vopDecref sv)
      (fun _ fs' => Volume n live count refs fs' ∧ Keeps live fs fs') fs := by
  refine Prog.Returns.mono (vopDecref_wp h hloaded hroot) ?_
  intro _ fs' hback
  have hvolume := hback.volume
  have hkeeps := hback.keeps
  rw [remaining_kept (by omega)] at hvolume hkeeps
  rw [oneLess_oneMore] at hvolume
  exact ⟨hvolume, hkeeps⟩

end OS161.Sfs
