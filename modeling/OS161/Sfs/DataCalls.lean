import OS161.Sfs.Durability
import OS161.Sfs.Fetch
import OS161.Sfs.Lookups
import OS161.Sfs.TruncateExact

namespace OS161.Sfs

open OS161.Data
open OS161.Kern
open OS161.Lib
open OS161.Vfs

/-! The calls on the data of a file, and what they do to the store. -/

variable {fs fs' : SfsFs} {live : Nat → Bool} {count refs : Nat → Nat}
variable {sv ino n : Nat} {u : Uio}

/-! One file changes. -/

/-- The directory is as it was where another file changes. -/
theorem Sound.only (h : Sound n live refs fs) (hloaded : Loaded fs sv ino) (hne : ino ≠ 1)
    (honly : OnlyFile live sv fs fs') (hfiles : Files n live fs') :
    Sound n live refs fs' ∧ ∀ name other, fs'.Binds name other ↔ fs.Binds name other := by
  have hroot := h.volume.root
  have hother : 1 ≠ (fs.vnode sv).svIno := by
    rw [hloaded.ino]
    exact Ne.symm hne
  have hfile := honly.file hroot hother (by decide)
  have hinode := honly.inode hroot hother (by decide)
  have hentry : fs'.entry = fs.entry := by
    funext slot
    rw [SfsFs.entry, SfsFs.entry, hfile]
  have hslots : fs'.slots = fs.slots := by
    rw [SfsFs.slots, SfsFs.slots, hinode]
  have hcount : fs'.linkcounts = fs.linkcounts := by
    funext other
    rw [SfsFs.linkcounts, SfsFs.linkcounts, SfsFs.links, SfsFs.links, hentry, hslots]
  refine ⟨⟨?_, ?_, ?_⟩, fun _ _ => binds_congr hentry hslots⟩
  · rw [hcount]
    exact h.volume.only hloaded honly hfiles
  · exact ⟨by rw [hinode]; exact h.size.whole, by rw [hinode]; exact h.size.bound⟩
  · unfold DirNames
    rw [hentry, hslots]
    exact h.names

/-- The calls that change the data of one file. -/
theorem OnlyFile.yields {e : Effect (List Byte) Nat Nat} (h : Orderly n fs)
    (hloaded : Loaded fs sv ino) (hne : ino ≠ 1) (honly : OnlyFile fs.alive sv fs fs')
    (hfiles : Files n fs.alive fs') (henabled : fs.tree.Enabled e)
    (hnames : fs.tree.namesAfter e = fs.tree.names)
    (hhandles : fs.tree.handlesAfter e = fs.tree.handles)
    (hrefs : fs.tree.refsAfter e = fs.tree.refs)
    (hown : FlatStore.Leaves ino (fs.tree.data ino) (fs'.tree.data ino) e)
    (hothers : ∀ other (d : FileData), other ≠ ino → FlatStore.Leaves other d d e)
    (hsize : (fs'.tree.data ino).size < 2 ^ 31) : Yields n fs e fs' := by
  obtain ⟨hsound, hbinds⟩ := h.sound.only hloaded hne honly hfiles
  have hdata : ∀ other, other ≠ ino → fs.alive other = true →
      fs'.tree.data other = fs.tree.data other := by
    intro other hother halive
    have hapart : other ≠ (fs.vnode sv).svIno := by
      rw [hloaded.ino]
      exact hother
    have hzero := h.sound.files.ne_zero halive
    show FileData.mk _ _ = FileData.mk _ _
    rw [honly.file halive hapart hzero, honly.inode halive hapart hzero]
  refine h.yields (by rw [hrefs]; exact hsound) henabled ?_ ?_ ?_ ?_ ?_
  · intro name other
    rw [hnames, hbinds, tree_names h.sound.names]
  · intro other ino' hother
    rw [hhandles] at hother
    exact honly.staysLoaded other ino' (tree_handles.mp hother)
  · intro other halive
    rw [FlatStore.AliveAfter, hnames, hhandles]
    exact h.alive_iff.mp halive
  · intro other _ halive
    by_cases heq : other = ino
    · rw [heq]
      exact hown
    · rw [hdata other heq halive]
      exact hothers other _ heq
  · intro other _ halive
    by_cases heq : other = ino
    · rw [heq]
      exact hsize
    · rw [hdata other heq halive]
      exact h.sizes other halive

theorem Loaded.tree_data (hloaded : Loaded fs sv ino) (h : Files n live fs) :
    fs.tree.data ino = ⟨fileBytes (fs.file ino), fs.size sv⟩ := by
  show FileData.mk _ _ = _
  rw [hloaded.inode h]
  rfl

theorem Orderly.size_lt (h : Orderly n fs) (hloaded : Loaded fs sv ino) :
    fs.size sv < 2 ^ 31 := by
  have hsize := h.sizes ino (hloaded.alive h.sound.files)
  rw [hloaded.tree_data h.sound.files] at hsize
  exact hsize

/-! Writing. -/

theorem grown_eq_max (hsize : size < 2 ^ 31) (pos : Nat) : grown size pos = max size pos := by
  unfold grown
  rw [offT_of_lt hsize]
  split <;> omega

theorem Stored.yields {io : Io} {m : Nat} (h : Orderly n fs) (hloaded : Loaded fs sv ino)
    (hne : ino ≠ 1) (hcovers : u.Covers) (hoffset : u.uioOffset < 2 ^ 31)
    (hstored : Stored n fs.alive sv ino fs u m io) :
    Yields n fs (.write ino u.uioOffset (u.iov.take m)) io.fs := by
  have hlength := length_take_iov hcovers hstored.fits
  have hbound := hstored.bound
  have hsize := h.size_lt hloaded
  have hafter : io.fs.tree.data ino =
      (fs.tree.data ino).write u.uioOffset (u.iov.take m) := by
    rw [(hloaded.only hstored.only).tree_data hstored.files, hloaded.tree_data h.sound.files,
      hstored.bytes, hstored.size, grown_eq_max hsize, FileData.write, hlength]
  refine hstored.only.yields h hloaded hne hstored.files ⟨sv, tree_handles.mpr hloaded⟩ rfl rfl rfl
    ?_ ?_ ?_
  · rw [FlatStore.Leaves, if_pos rfl]
    exact hafter
  · intro other d hother
    rw [FlatStore.Leaves, if_neg (Ne.symm hother)]
  · rw [hafter, hloaded.tree_data h.sound.files]
    show max (fs.size sv) (u.uioOffset + (u.iov.take m).length) < 2 ^ 31
    rw [hlength]
    by_cases hnone : m = 0
    · omega
    · have := hbound (by omega)
      omega

/-! Cutting. -/

theorem fileBytes_past (hk : 143 ≤ pos / 512) : fileBytes (fs.file ino) pos = 0 := by
  have hhole : dataBlock fs.disk (fs.inode ino) (pos / 512) = 0 := by
    rw [dataBlock, if_neg (by omega), if_neg (by omega)]
  rw [fileBytes, SfsFs.file, fileBlock, if_pos hhole]
  exact Record.bytes_zeros _

theorem Truncated.cut (hcut : Truncated n live sv ino (blocksOf len) len fs fs')
    (hlen : len < 2 ^ 31) :
    FileData.Cut len ⟨fileBytes (fs.file ino), fs.size sv⟩ ⟨fileBytes (fs'.file ino), fs'.size sv⟩ := by
  refine ⟨hcut.size, fun pos => ?_⟩
  show fileBytes (fs'.file ino) pos = fileBytes (fs.file ino) pos ∨
    len ≤ pos ∧ fileBytes (fs'.file ino) pos = 0
  by_cases hpast : 143 ≤ pos / 512
  · left
    rw [fileBytes_past hpast, fileBytes_past hpast]
  · by_cases hkept : kept (blocksOf len) (pos / 512) = true
    · left
      rw [fileBytes, fileBytes, hcut.file, if_pos hkept]
    · right
      have hblocks := mt (kept_blocksOf hlen (by omega)).mpr hkept
      refine ⟨?_, ?_⟩
      · unfold keptBlocks at hblocks
        omega
      · rw [fileBytes, hcut.file, if_neg hkept]
        exact Record.bytes_zeros _

/-- `sfs_truncate` on a vnode of a file. -/
theorem vopTruncate_yields (h : Orderly n fs) (hloaded : Loaded fs sv ino)
    (hlen : len < 2 ^ 31) :
    Prog.wp (vopTruncate sv len) (fun _ fs' => ino ≠ 1 ∧ Yields n fs (.cut ino len) fs')
      (fun code fs' => Yields n fs .none fs' ∧ code = .EISDIR ∧ ino = 1) (fun _ => False) fs := by
  unfold vopTruncate
  simp only [↓Prog.wp_bind, ↓Prog.wp_get]
  rw [h.sound.volume.ops_loaded hloaded, opsOf]
  by_cases hroot : ino = 1
  · rw [if_pos hroot]
    exact ⟨(Untouched.refl h.sound.volume).yields h, rfl, hroot⟩
  · rw [if_neg hroot]
    refine Prog.wp_mono (sfsTruncate_wp h.sound.files hloaded (by omega)) ?_
      (fun _ _ hfails => hfails.elim) (fun _ hbad => hbad)
    intro _ fs' hcut
    have hafter := (hloaded.only hcut.only).tree_data hcut.files
    refine ⟨hroot, hcut.only.yields h hloaded hroot hcut.files ⟨sv, tree_handles.mpr hloaded⟩ rfl
      rfl rfl ?_ ?_ ?_⟩
    · rw [FlatStore.Leaves, if_pos rfl, hafter, hloaded.tree_data h.sound.files]
      exact hcut.cut hlen
    · intro other d hother
      rw [FlatStore.Leaves, if_neg (Ne.symm hother)]
    · rw [hafter, hcut.size]
      exact hlen

/-! Syncing. -/

/-- The vnodes, the inodes and the files are what they were. -/
structure Quiet (n : Nat) (live : Nat → Bool) (count refs : Nat → Nat) (fs fs' : SfsFs) :
    Prop where
  volume : Volume n live count refs fs'
  stays : Stays live fs fs'
  loaded : StaysLoaded fs fs'
  table : fs'.sfsVnodes = fs.sfsVnodes

theorem Quiet.trans {fs'' : SfsFs} (hfirst : Quiet n live count refs fs fs')
    (hsecond : Quiet n live count refs fs' fs'') : Quiet n live count refs fs fs'' where
  volume := hsecond.volume
  stays := hfirst.stays.trans hsecond.stays
  loaded sv ino hloaded := hsecond.loaded sv ino (hfirst.loaded sv ino hloaded)
  table := hsecond.table.trans hfirst.table

theorem Quiet.refl (h : Volume n live count refs fs) : Quiet n live count refs fs fs :=
  ⟨h, .refl live fs, fun _ _ hloaded => hloaded, rfl⟩

theorem Quiet.yields (h : Orderly n fs)
    (hquiet : Quiet n fs.alive fs.linkcounts fs.tree.refs fs fs') : Yields n fs .none fs' := by
  have hroot := h.sound.volume.root
  exact h.yields_none (h.sound.keep hquiet.stays.toKeeps hroot hquiet.volume)
    (fun _ _ => hquiet.stays.toKeeps.binds hroot) hquiet.loaded hquiet.stays.toKeeps.elsewhere

theorem sfsFsync_quiet (h : Volume n live count refs fs) (hloaded : Loaded fs sv ino) :
    Prog.Returns (sfsFsync sv) (fun _ fs' => Quiet n live count refs fs fs') fs := by
  refine Prog.Returns.mono (sfsSyncInode_wp h.files hloaded) ?_
  intro _ fs' hsynced
  exact ⟨h.only hloaded hsynced.only hsynced.files, hsynced.stays, hsynced.only.staysLoaded,
    hsynced.only.vnodes⟩

theorem syncVnodes_quiet (h : Volume n live count refs fs) {svs : List Nat}
    (hsvs : ∀ sv ∈ svs, sv ∈ fs.sfsVnodes) :
    Prog.Returns (syncVnodes svs) (fun _ fs' => Quiet n live count refs fs fs') fs := by
  induction svs generalizing fs with
  | nil => exact .refl h
  | cons sv rest ih =>
      have hloaded : Loaded fs sv _ := ⟨hsvs sv (.head rest), rfl⟩
      unfold syncVnodes Prog.Returns
      simp only [↓Prog.wp_bind, ↓Prog.wp_attempt]
      refine Prog.wp_mono (sfsFsync_quiet h hloaded) ?_ (fun _ _ hfails => hfails.elim)
        (fun _ hbad => hbad)
      intro _ fs₁ hfirst
      refine Prog.Returns.mono (ih hfirst.volume ?_) (fun _ _ hrest => hfirst.trans hrest)
      intro other hother
      rw [hfirst.table]
      exact hsvs other (.tail sv hother)

/-- The disk changes only where no file is. -/
theorem Volume.quiet_disk (h : Volume n live count refs fs) {ws : List Write}
    (hwrote : Wrote fs ws fs') (hws : ∀ w ∈ ws, Reserved n w.1 ∧ w.1 ≠ 1)
    (hvnode : fs'.vnode = fs.vnode) (htable : fs'.sfsVnodes = fs.sfsVnodes)
    (hfreemap : fs'.sfsFreemap = fs.sfsFreemap) (hsuper : fs'.sfsSuper = fs.sfsSuper) :
    Quiet n live count refs fs fs' := by
  have hdisk : ∀ ino slot, live ino = true → fs.blockAt ino slot ≠ 0 →
      fs'.disk (fs.blockAt ino slot) = fs.disk (fs.blockAt ino slot) := by
    intro ino slot hlive hblock
    rw [hwrote.disk]
    refine landed_of_ne ?_ _ _
    intro w hw heq
    obtain ⟨hreserved, hne⟩ := hws w hw
    rw [← held_of_live hlive] at hblock heq
    have hfits := h.files.holding.fits ⟨ino, slot⟩ hblock
    rw [← heq] at hfits
    by_cases hroot : (⟨ino, slot⟩ : Place) = ⟨1, .inode⟩
    · rw [hroot, held_of_live h.root] at heq
      exact hne heq
    · exact hfits.2 hroot hreserved
  have hloaded : fs'.loaded = fs.loaded := by
    funext ino
    rw [SfsFs.loaded, SfsFs.loaded, htable, hvnode]
  have hstays : Stays live fs fs' := by
    refine .of_disk ?_ (fun ino slot hlive _ hblock => hdisk ino slot hlive hblock)
    intro ino hlive
    rw [SfsFs.inode, SfsFs.inode, hloaded, hvnode]
    cases fs.loaded ino with
    | some sv => rfl
    | none => exact hdisk ino .inode hlive (h.files.ne_zero hlive)
  have hmedia : fs'.mediaErrors = fs.mediaErrors := by
    rw [hwrote.mediaErrors, h.files.quiet, List.drop_nil]
  have hfiles : Files n live fs' := by
    refine h.files.keep hstays.toKeeps ⟨?_, ?_, ?_, ?_⟩ hfreemap hsuper hwrote.dBlocks hmedia
    · rw [htable]
      exact h.files.nodup
    · rw [htable, hvnode]
      exact h.files.distinct
    · rw [htable, hvnode]
      exact h.files.alive
    · rw [htable, hvnode]
      intro sv hsv hclean
      have halive := h.files.alive sv hsv
      rw [← h.files.clean sv hsv hclean]
      exact hdisk _ .inode halive (h.files.ne_zero halive)
  refine ⟨?_, hstays, ?_, htable⟩
  · refine h.stays hfiles hstays (fun _ hlive => hlive) h.root h.unlinked ?_ ?_ ?_
    · rw [htable, hvnode]
      exact h.ops
    · rw [htable, hvnode]
      exact h.refcount
    · rw [htable]
      exact h.referenced
  · intro sv ino hsv
    exact ⟨by rw [htable]; exact hsv.mem, by rw [hvnode]; exact hsv.ino⟩

theorem Volume.map_le (h : Volume n live count refs fs) :
    2 + sfsBitblocks fs.spNblocks ≤ fs.dBlocks := by
  have hdevice := h.files.guarded.device
  have hlow := h.files.sized.low
  rw [h.files.guarded.nblocks, sfsBitblocks, h.files.sized.bitmapsize]
  omega

theorem sfsSync_quiet (h : Volume n live count refs fs) :
    Prog.Returns sfsSync (fun _ fs' => Quiet n live count refs fs fs') fs := by
  unfold sfsSync Prog.Returns
  simp only [↓Prog.wp_bind, ↓Prog.wp_get]
  refine Prog.Returns.mono (syncVnodes_quiet h (fun _ hsv => hsv)) ?_
  intro _ fs₁ hfirst
  refine Prog.Returns.mono (syncFreemap_returns hfirst.volume.map_le) ?_
  rintro _ fs₂ ⟨hwrote, disk, errors, hfs₂⟩
  have hsecond : Quiet n live count refs fs₁ fs₂ := by
    refine hfirst.volume.quiet_disk hwrote ?_ (by rw [hfs₂]) (by rw [hfs₂]) (by rw [hfs₂])
      (by rw [hfs₂])
    intro w hw
    obtain ⟨_, j, hj, rfl⟩ := mem_freemapWrites.mp hw
    rw [hfirst.volume.files.guarded.nblocks] at hj
    exact ⟨Or.inr (Or.inr (Or.inl ⟨Nat.le_add_right 2 j, Nat.add_lt_add_left hj 2⟩)),
      by show 2 + j ≠ 1; omega⟩
  have hboth := hfirst.trans hsecond
  have hdevice := hboth.volume.map_le
  refine Prog.Returns.mono (syncSuper_returns (by omega)) ?_
  rintro _ fs₃ ⟨hwrote', disk', errors', hfs₃⟩
  refine hboth.trans (hboth.volume.quiet_disk hwrote' ?_ (by rw [hfs₃]) (by rw [hfs₃])
    (by rw [hfs₃]) (by rw [hfs₃]))
  intro w hw
  obtain ⟨_, rfl⟩ := mem_superWrites.mp hw
  exact ⟨Or.inl rfl, Nat.zero_ne_one⟩

end OS161.Sfs
