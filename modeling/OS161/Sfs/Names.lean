import OS161.Sfs.Reclaim

namespace OS161.Sfs

open OS161.Data
open OS161.Kern
open OS161.Lib
open OS161.Vfs

/-! The names in the root directory and the inodes they are bound to. -/

variable {fs fs' fs'' : SfsFs} {live live' : Nat → Bool} {refs refs' : Nat → Nat}
variable {dir sv ino ino' n slot slot' : Nat} {name : List Byte}

/-- The entry in a slot binds the name to the inode. -/
structure SfsFs.BoundAt (fs : SfsFs) (slot : Nat) (name : List Byte) (ino : Nat) : Prop where
  inside : slot < fs.slots
  number : (fs.entry slot).get sfdIno = ino
  used : ino ≠ 0
  called : (fs.entry slot).sfdName = name

/-- The map from names to inodes. -/
def SfsFs.Binds (fs : SfsFs) (name : List Byte) (ino : Nat) : Prop :=
  ∃ slot, fs.BoundAt slot name ino

/-- A name is bound in one slot only. -/
theorem DirNames.slot_eq (hnames : DirNames fs) (hbound : fs.BoundAt slot name ino)
    (hbound' : fs.BoundAt slot' name ino') : slot = slot' := by
  by_contra hne
  refine hnames slot hbound.inside slot' hbound'.inside hne ?_ ?_ ?_
  · rw [hbound.number]
    exact hbound.used
  · rw [hbound'.number]
    exact hbound'.used
  · rw [hbound.called, hbound'.called]

theorem DirNames.ino_eq (hnames : DirNames fs) (hbinds : fs.Binds name ino)
    (hbinds' : fs.Binds name ino') : ino = ino' := by
  obtain ⟨slot, hbound⟩ := hbinds
  obtain ⟨slot', hbound'⟩ := hbinds'
  have hslot := hnames.slot_eq hbound hbound'
  rw [← hbound.number, ← hbound'.number, hslot]

theorem boundAt_congr (hentry : fs'.entry slot = fs.entry slot)
    (hinside : slot < fs'.slots ↔ slot < fs.slots) :
    fs'.BoundAt slot name ino ↔ fs.BoundAt slot name ino := by
  constructor
  · intro ⟨hin, hnumber, hused, hcalled⟩
    rw [hentry] at hnumber hcalled
    exact ⟨hinside.mp hin, hnumber, hused, hcalled⟩
  · intro ⟨hin, hnumber, hused, hcalled⟩
    rw [← hentry] at hnumber hcalled
    exact ⟨hinside.mpr hin, hnumber, hused, hcalled⟩

theorem binds_congr (hentry : fs'.entry = fs.entry) (hslots : fs'.slots = fs.slots) :
    fs'.Binds name ino ↔ fs.Binds name ino :=
  exists_congr fun slot => boundAt_congr (by rw [hentry]) (by rw [hslots])

theorem Keeps.boundAt (hkeeps : Keeps live fs fs') (hroot : live 1 = true) :
    fs'.BoundAt slot name ino ↔ fs.BoundAt slot name ino :=
  boundAt_congr (by rw [hkeeps.entry hroot]) (by rw [hkeeps.slots hroot])

theorem Keeps.binds (hkeeps : Keeps live fs fs') (hroot : live 1 = true) :
    fs'.Binds name ino ↔ fs.Binds name ino :=
  binds_congr (hkeeps.entry hroot) (hkeeps.slots hroot)

theorem DirSame.binds (hsame : DirSame n live sv fs fs') :
    fs'.Binds name ino ↔ fs.Binds name ino :=
  binds_congr hsame.entry hsame.slots

/-- An entry in another slot stays. -/
theorem DirWritten.boundAt {sd : SfsDir} (hwritten : DirWritten n live sv fs slot sd fs')
    (hslot : slot ≤ fs.slots) (hne : slot' ≠ slot) :
    fs'.BoundAt slot' name ino ↔ fs.BoundAt slot' name ino := by
  apply boundAt_congr
  · rw [hwritten.entry, Function.update_of_ne hne]
  · rw [hwritten.slots]
    omega

/-- A new entry binds its name, and the others are as they were. -/
theorem Linked.binds {link : Name} (hlinked : Linked n live sv fs link ino slot fs')
    (hfits : ino < 2 ^ 32) (hused : ino ≠ 0) :
    fs'.Binds name ino' ↔ fs.Binds name ino' ∨ name = link.val ∧ ino' = ino := by
  have hentry : fs'.entry slot = makeSfsDir ino link.val := by
    rw [hlinked.written.entry, Function.update_self]
  have hnumber : (fs'.entry slot).get sfdIno = ino := by
    rw [hentry]
    exact ino_makeSfsDir hfits link.val
  have hcalled : (fs'.entry slot).sfdName = link.val := by
    rw [hentry]
    exact sfdName_makeSfsDir ino link hlinked.short
  constructor
  · intro ⟨other, hbound⟩
    by_cases hother : other = slot
    · rw [hother] at hbound
      exact Or.inr ⟨hbound.called.symm.trans hcalled, hbound.number.symm.trans hnumber⟩
    · exact Or.inl ⟨other, (hlinked.written.boundAt hlinked.inside hother).mp hbound⟩
  · intro hcases
    rcases hcases with ⟨other, hbound⟩ | ⟨hname, hino⟩
    · refine ⟨other, (hlinked.written.boundAt hlinked.inside ?_).mpr hbound⟩
      intro heq
      rw [heq] at hbound
      exact hbound.used (hbound.number.symm.trans (hlinked.free hbound.inside))
    · rw [hname, hino]
      refine ⟨slot, ?_, hnumber, hused, hcalled⟩
      rw [hlinked.written.slots]
      omega

/-- The name of the erased entry is bound no more. -/
theorem Unlinked.binds (hunlinked : Unlinked n live sv fs slot fs') (hnames : DirNames fs)
    {link : List Byte} (hbound : fs.BoundAt slot link ino) :
    fs'.Binds name ino' ↔ fs.Binds name ino' ∧ name ≠ link := by
  have hentry : (fs'.entry slot).get sfdIno = 0 := by
    rw [hunlinked.written.entry, Function.update_self, Record.get_zeros]
  have hinside := Nat.le_of_lt hbound.inside
  constructor
  · intro ⟨other, hafter⟩
    have hother : other ≠ slot := by
      intro heq
      rw [heq] at hafter
      exact hafter.used (hafter.number.symm.trans hentry)
    have hbefore := (hunlinked.written.boundAt hinside hother).mp hafter
    refine ⟨⟨other, hbefore⟩, ?_⟩
    intro hname
    rw [hname] at hbefore
    exact hother (hnames.slot_eq hbefore hbound)
  · intro ⟨⟨other, hbefore⟩, hname⟩
    refine ⟨other, (hunlinked.written.boundAt hinside ?_).mpr hbefore⟩
    intro heq
    rw [heq] at hbefore
    exact hname (hbefore.called.symm.trans hbound.called)

/-! The state between two calls. -/

/-- The link count that each inode should have; the root has one that no entry stands for. -/
def SfsFs.linkcounts (fs : SfsFs) (ino : Nat) : Nat := fs.links ino + if ino = 1 then 1 else 0

/-- The volume is in order: its inodes count the entries that name them. -/
structure Sound (n : Nat) (live : Nat → Bool) (refs : Nat → Nat) (fs : SfsFs) : Prop where
  volume : Volume n live fs.linkcounts refs fs
  size : DirSize fs
  names : DirNames fs

theorem Keeps.linkcounts (hkeeps : Keeps live fs fs') (hroot : live 1 = true) :
    fs'.linkcounts = fs.linkcounts := by
  funext ino
  rw [SfsFs.linkcounts, SfsFs.linkcounts, hkeeps.links hroot]

theorem linkcounts_root (fs : SfsFs) : 0 < fs.linkcounts 1 := by
  unfold SfsFs.linkcounts
  rw [if_pos rfl]
  omega

theorem SfsFs.BoundAt.linked (hbound : fs.BoundAt slot name ino) : 0 < fs.linkcounts ino := by
  have hlinks : fs.links ino ≠ 0 := links_pos_iff.mpr ⟨slot, hbound.inside, hbound.number⟩
  unfold SfsFs.linkcounts
  omega

namespace Sound

variable (h : Sound n live refs fs)

include h

theorem files : Files n live fs := h.volume.files

theorem rootDir (hdir : Loaded fs dir 1) : RootDir n live dir fs :=
  ⟨h.files, hdir, h.volume.type_loaded hdir, h.size, h.names⟩

/-- The same names, and what else changes is in order too. -/
theorem keep (hkeeps : Keeps live' fs fs') (hroot : live' 1 = true)
    (hvolume : Volume n live' fs.linkcounts refs' fs') : Sound n live' refs' fs' := by
  rw [← hkeeps.linkcounts hroot] at hvolume
  exact ⟨hvolume, hkeeps.dirSize hroot h.size, hkeeps.dirNames hroot h.names⟩

/-- What an entry names is an inode. -/
theorem alive (hbound : fs.BoundAt slot name ino) : live ino = true := by
  rw [← Bool.not_eq_false]
  intro hdead
  have hnone := h.volume.unlinked ino hbound.used hdead
  have hlinked := hbound.linked
  omega

/-- There is no room in the directory for more links than a link count can say. -/
theorem linkcounts_lt (ino : Nat) : fs.linkcounts ino + 1 < 2 ^ 16 := by
  have hcount : fs.links ino ≤ fs.slots := Nat.count_le _
  have hbound := h.size.bound
  unfold SfsFs.slots at hcount
  unfold SfsFs.linkcounts
  split
  · omega
  · omega

end Sound

/-! Looking up a name. -/

/-- The inode that the name is bound to is handed out. -/
structure FoundOnce (n : Nat) (live : Nat → Bool) (refs : Nat → Nat) (fs : SfsFs)
    (name : List Byte) (victim slot ino : Nat) (fs' : SfsFs) : Prop where
  bound : fs.BoundAt slot name ino
  out : HandedOut n live fs.linkcounts refs fs ino victim fs'

theorem Scanned.bound {scan : DirScan} (hscan : Scanned fs name fs.slots scan)
    (hfound : scan.found = some (slot, ino)) : fs.BoundAt slot name ino := by
  obtain ⟨hinside, hnumber, hused, hcalled⟩ := hscan.found slot ino hfound
  exact ⟨hinside, hnumber, hused, hcalled⟩

theorem Scanned.unbound {scan : DirScan} (hscan : Scanned fs name fs.slots scan)
    (hnone : scan.found = none) : ¬ fs.Binds name ino := by
  intro ⟨slot, hbound⟩
  refine hscan.absent hnone slot hbound.inside ?_ hbound.called
  rw [hbound.number]
  exact hbound.used

theorem sfsLookonce_wp (h : Sound n live refs fs) (hdir : Loaded fs dir 1) (name : Name)
    {mem : Memory} (hmem : mem.Fresh fs) :
    Prog.wp (sfsLookonce dir name mem)
      (fun found fs' => ∃ ino, FoundOnce n live refs fs name.val found.1 found.2 ino fs')
      (fun _ fs' => Untouched n live fs.linkcounts refs fs fs' ∧
        ∀ ino, fs.Binds name.val ino → fs.loaded ino = none) (fun _ => False) fs := by
  unfold sfsLookonce
  rw [Prog.wp_bind]
  refine Prog.wp_mono (sfsDirFindname_wp (h.rootDir hdir) name) ?_ (fun _ _ hfails => hfails.elim)
    (fun _ hbad => hbad)
  rintro scan _ ⟨hscan, hsame⟩
  rw [hsame]
  split
  case h_1 hnone => exact ⟨.refl h.volume, fun _ hbinds => absurd hbinds (hscan.unbound hnone)⟩
  case h_2 slot ino hfound =>
      have hbound := hscan.bound hfound
      simp only [↓Prog.wp_bind, ↓Prog.wp_get, ↓Prog.wp_assert, ↓Prog.wp_pure]
      refine Prog.wp_mono (sfsLoadvnode_wp h.volume (h.alive hbound) hmem) ?_ ?_
        (fun _ hbad => hbad)
      · intro victim fs' hout
        rw [hout.volume.linkcount_loaded hout.loaded, if_pos (Nat.ne_of_gt hbound.linked)]
        exact ⟨ino, hbound, hout⟩
      · rintro code fs' ⟨huntouched, _, hnone⟩
        refine ⟨huntouched, fun ino' hbinds => ?_⟩
        rw [h.names.ino_eq hbinds ⟨slot, hbound⟩]
        exact hnone

/-! A volume of six blocks with one file, named `a`. -/

def oneFileRoot : Block :=
  (((Record.zeros.set sfiSize 64).set sfiType 2).set sfiLinkcount 1).set (sfiDirect 0) 3

def oneFileInode : Block := (Record.zeros.set sfiType 1).set sfiLinkcount 1

/-- Block 3 is the directory, block 4 the inode of the file, and block 5 is free. -/
def oneFile (mediaErrors : List Bool) : SfsFs where
  disk b :=
    if b = 1 then oneFileRoot
    else if b = 3 then
      Record.ofBytes ((Record.zeros : Block).bytes.splice 0 (makeSfsDir 4 [97]).list)
    else if b = 4 then oneFileInode
    else Record.zeros
  dBlocks := 6
  mediaErrors := mediaErrors
  sfsSuper := Record.zeros.set spNblocksField 6
  sfsSuperdirty := false
  sfsVnodes := [0, 1]
  vnode sv :=
    if sv = 0 then ⟨.sfsDirops, 1, oneFileRoot, 1, false⟩
    else ⟨.sfsFileops, 1, oneFileInode, 4, false⟩
  sfsFreemap := { nbits := 4096, v := fun ix => if ix = 0 then 0xdf#8 else 0xff#8 }
  sfsFreemapdirty := false

def oneFileLive (ino : Nat) : Bool := ino = 1 || ino = 4

def oneFileRefs (sv : Nat) : Nat := if sv < 2 then 1 else 0

theorem oneFile_root : Loaded (oneFile []) 0 1 := ⟨by decide, rfl⟩

private theorem oneFile_marked {i : Nat} (hi : i ≠ 5) :
    (oneFile []).sfsFreemap.bitmapIsset i = true := by
  by_cases hlow : i < 8
  · have hall : ∀ j < 8, j ≠ 5 → (oneFile []).sfsFreemap.bitmapIsset j = true := by decide
    exact hall i hlow hi
  · have hword : (oneFile []).sfsFreemap.v (i / 8) = 0xff#8 := if_neg (by omega)
    rw [Bitmap.bitmapIsset_eq, BitWords.bit, hword]
    exact BitVec.getLsbD_allOnes.trans (by simp; omega)

private theorem oneFile_held (p : Place) (hp : (oneFile []).held oneFileLive p ≠ 0) :
    (p, (oneFile []).held oneFileLive p) ∈
      [(⟨1, .inode⟩, 1), (⟨1, .data 0⟩, 3), (⟨4, .inode⟩, 4)] := by
  obtain ⟨ino, slot⟩ := p
  by_cases hroot : ino = 1
  · subst hroot
    rw [held_of_live rfl] at hp ⊢
    have hinode : (oneFile []).inode 1 = oneFileRoot := rfl
    cases slot with
    | inode => simp [SfsFs.blockAt]
    | indirect =>
        refine absurd ?_ hp
        rw [SfsFs.blockAt, hinode, oneFileRoot, indirect_set_direct _ (by decide),
          header_sfiLinkcount.indirect, header_sfiType.indirect, header_sfiSize.indirect,
          Record.get_zeros]
    | data k =>
        have hbare : ∀ k, dataBlock (oneFile []).disk
            (((Record.zeros.set sfiSize 64).set sfiType 2).set sfiLinkcount 1) k = 0 := by
          intro k
          rw [dataBlock_set_header _ _ header_sfiLinkcount, dataBlock_set_header _ _ header_sfiType,
            dataBlock_set_header _ _ header_sfiSize]
          simp [dataBlock]
        have hdata : (oneFile []).blockAt 1 (.data k) = if k = 0 then 3 else 0 := by
          rw [SfsFs.blockAt, hinode, oneFileRoot,
            dataBlock_set_direct _ _ (by decide) (by decide), hbare]
        rw [hdata] at hp ⊢
        by_cases hk : k = 0
        · simp [hk]
        · exact absurd (if_neg hk) hp
  · by_cases hfile : ino = 4
    · subst hfile
      rw [held_of_live rfl] at hp ⊢
      have hinode : (oneFile []).inode 4 = oneFileInode := rfl
      cases slot with
      | inode => simp [SfsFs.blockAt]
      | indirect =>
          refine absurd ?_ hp
          rw [SfsFs.blockAt, hinode, oneFileInode, header_sfiLinkcount.indirect,
            header_sfiType.indirect, Record.get_zeros]
      | data k =>
          refine absurd ?_ hp
          rw [SfsFs.blockAt, hinode, oneFileInode, dataBlock_set_header _ _ header_sfiLinkcount,
            dataBlock_set_header _ _ header_sfiType]
          simp [dataBlock]
    · refine absurd ?_ hp
      rw [SfsFs.held, if_neg (by simp [oneFileLive, hroot, hfile])]

private theorem oneFile_files : Files 6 oneFileLive (oneFile []) where
  sized := ⟨by decide, by decide⟩
  guarded := by
    refine ⟨Record.get_set _ (by decide) (by decide), Nat.le_refl _, by decide, ?_⟩
    intro i _ hreserved
    apply oneFile_marked
    intro hfree
    have hmap : sfsBitblocks 6 = 1 := by decide
    unfold Reserved at hreserved
    omega
  quiet := rfl
  nodup := by decide
  distinct := by decide
  alive := by decide
  dead := rfl
  clean := by
    intro sv hsv _
    have hcases : sv = 0 ∨ sv = 1 := by simpa [oneFile] using hsv
    rcases hcases with rfl | rfl
    · rfl
    · rfl
  holding := by
    refine .of_list oneFile_held (by decide) ?_
    have hmap : sfsBitblocks 6 = 1 := by decide
    intro x hx
    simp only [List.mem_cons, List.not_mem_nil, or_false] at hx
    rcases hx with rfl | rfl | rfl
    · exact ⟨oneFile_marked (by decide), fun hroot => absurd rfl hroot⟩
    · refine ⟨oneFile_marked (by decide), fun _ => ?_⟩
      unfold Reserved
      omega
    · refine ⟨oneFile_marked (by decide), fun _ => ?_⟩
      unfold Reserved
      omega

/-- The only entry is the one of the file. -/
theorem oneFile_entry {slot : Nat} (hslot : slot < (oneFile []).slots) :
    slot = 0 ∧ ((oneFile []).entry 0).get sfdIno = 4 := by
  have hslots : (oneFile []).slots = 1 := by decide
  exact ⟨by omega, by decide⟩

theorem oneFile_sound : Sound 6 oneFileLive oneFileRefs (oneFile []) where
  volume := by
    have hlive : ∀ ino, oneFileLive ino = true → ino = 1 ∨ ino = 4 := by
      intro ino hino
      simpa [oneFileLive] using hino
    refine ⟨oneFile_files, rfl, ?_, ?_, ?_, by decide, by decide, ?_⟩
    · intro ino hino
      rcases hlive ino hino with rfl | rfl
      · decide
      · decide
    · intro ino hino
      rcases hlive ino hino with rfl | rfl
      · decide
      · decide
    · intro ino hne hdead
      have hnone : (oneFile []).links ino = 0 := by
        by_contra hsome
        obtain ⟨slot, hslot, hat⟩ := links_pos_iff.mp hsome
        obtain ⟨hzero, hfile⟩ := oneFile_entry hslot
        rw [hzero, hfile] at hat
        rw [← hat] at hdead
        cases hdead
      rw [SfsFs.linkcounts, hnone, if_neg]
      intro hroot
      rw [hroot] at hdead
      cases hdead
    · intro sv
      have hmem : sv ∈ (oneFile []).sfsVnodes ↔ sv = 0 ∨ sv = 1 := by simp [oneFile]
      rw [hmem, oneFileRefs]
      split
      · omega
      · omega
  size := ⟨by decide, by decide⟩
  names := by
    intro i hi j hj hne
    have hi' := (oneFile_entry hi).1
    have hj' := (oneFile_entry hj).1
    omega

end OS161.Sfs
