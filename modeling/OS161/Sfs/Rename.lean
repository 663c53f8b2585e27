import OS161.Sfs.Names

namespace OS161.Sfs

open OS161.Data
open OS161.Kern
open OS161.Lib
open OS161.Vfs

/-! `sfs_rename` moves a name, or it fails and leaves the names as they were. -/

variable {fs fs' fs'' : SfsFs} {live : Nat → Bool} {refs : Nat → Nat}
variable {dir g1 slot1 ino n : Nat} {n1 n2 : Name} {mem : Memory}

/-- The files other than the root directory are as they were. -/
structure Elsewhere (live : Nat → Bool) (fs fs' : SfsFs) : Prop where
  file : ∀ ino, live ino = true → ino ≠ 1 → fs'.file ino = fs.file ino
  size : ∀ ino, live ino = true → ino ≠ 1 →
    (fs'.inode ino).get sfiSize = (fs.inode ino).get sfiSize

theorem Elsewhere.trans (hfirst : Elsewhere live fs fs') (hsecond : Elsewhere live fs' fs'') :
    Elsewhere live fs fs'' where
  file ino hlive hroot := (hsecond.file ino hlive hroot).trans (hfirst.file ino hlive hroot)
  size ino hlive hroot := (hsecond.size ino hlive hroot).trans (hfirst.size ino hlive hroot)

theorem Keeps.elsewhere (hkeeps : Keeps live fs fs') : Elsewhere live fs fs' :=
  ⟨fun ino hlive _ => hkeeps.file ino hlive, fun ino hlive _ => hkeeps.size ino hlive⟩

theorem OnlyFile.elsewhere (honly : OnlyFile live dir fs fs') (h : Files n live fs)
    (hdir : Loaded fs dir 1) : Elsewhere live fs fs' := by
  refine ⟨?_, ?_⟩
  · intro ino hlive hroot
    exact honly.file hlive (by rw [hdir.ino]; exact hroot) (h.ne_zero hlive)
  · intro ino hlive hroot
    rw [honly.inode hlive (by rw [hdir.ino]; exact hroot) (h.ne_zero hlive)]

/-- The names, the link counts and the files are what they were. -/
structure Unchanged (live : Nat → Bool) (fs fs' : SfsFs) : Prop where
  names : ∀ name ino, fs'.Binds name ino ↔ fs.Binds name ino
  linkcounts : ∀ ino, live ino = true →
    (fs'.inode ino).get sfiLinkcount = (fs.inode ino).get sfiLinkcount
  elsewhere : Elsewhere live fs fs'

/-- The first name is gone and the second is bound to what the first was; the link counts and
the files are what they were. -/
structure Renamed (live : Nat → Bool) (name1 name2 : List Byte) (fs fs' : SfsFs) : Prop where
  bound : ∃ ino, fs.Binds name1 ino
  unbound : ∀ ino, ¬ fs.Binds name2 ino
  names : ∀ name ino, fs'.Binds name ino ↔
    name = name2 ∧ fs.Binds name1 ino ∨ name ≠ name1 ∧ name ≠ name2 ∧ fs.Binds name ino
  linkcounts : ∀ ino, live ino = true →
    (fs'.inode ino).get sfiLinkcount = (fs.inode ino).get sfiLinkcount
  elsewhere : Elsewhere live fs fs'

/-- The second name could not be entered, and the reference is given back. -/
theorem puke_wp {code : Errno} (h : Sound n live (oneMore refs g1) fs) (hdir : Loaded fs dir 1)
    (hg1 : Loaded fs g1 ino) (hlinked : 0 < fs.linkcounts ino)
    (hsame : DirSame n live dir fs fs') :
    Prog.wp (puke g1 code : Op Unit) (fun _ _ => False)
      (fun _ fs'' => Sound n live refs fs'' ∧ Unchanged live fs fs'') (fun _ => False) fs' := by
  have hvolume := h.volume.only hdir hsame.only hsame.files
  have hgive := hvolume.giveBack (hsame.only.staysLoaded g1 ino hg1) (linkcounts_root fs) hlinked
  unfold puke
  rw [Prog.wp_bind]
  refine Prog.wp_mono hgive ?_ (fun _ _ hfails => hfails.elim) (fun _ hbad => hbad)
  intro _ fs'' ⟨hvolume', hkeeps⟩
  have hroot := h.volume.root
  have hlinkcounts : fs''.linkcounts = fs.linkcounts := by
    rw [hkeeps.linkcounts hroot]
    funext other
    rw [SfsFs.linkcounts, SfsFs.linkcounts, hsame.links]
  have hnames := (hsame.rootDir (h.rootDir hdir)).names
  refine ⟨⟨?_, hkeeps.dirSize hroot hsame.size, hkeeps.dirNames hroot hnames⟩, ?_, ?_, ?_⟩
  · rw [hlinkcounts]
    exact hvolume'
  · intro name other
    rw [hkeeps.binds hroot, hsame.binds]
  · exact h.volume.linkcounts_eq hvolume'
  · exact (hsame.only.elsewhere h.files hdir).trans hkeeps.elsewhere

/-- The second name is there; the first is erased, and the link count is back where it was. -/
theorem renameUnlink_wp {slot2 : Nat} (h : Sound n live (oneMore refs g1) fs)
    (hdir : Loaded fs dir 1) (hg1 : Loaded fs g1 ino) (hbound : fs.BoundAt slot1 n1.val ino)
    (hlinked : Linked n live dir fs n2 ino slot2 fs') :
    Prog.Returns (renameUnlink dir g1 slot1 slot2)
      (fun _ fs'' => Sound n live refs fs'' ∧ Renamed live n1.val n2.val fs fs'') fs' := by
  have hroot := h.volume.root
  have hroom := h.linkcounts_lt ino
  have hused := hbound.used
  have hlive := h.alive hbound
  have hfits : ino < 2 ^ 32 := by
    have hin := (h.files.inode_used hlive).1
    have hsized := h.files.sized.high
    rw [h.files.guarded.nblocks] at hin
    omega
  have hvolume := h.volume.only hdir hlinked.written.only hlinked.written.files
  have hstays := hlinked.written.only.staysLoaded
  have hne : slot1 ≠ slot2 := by
    intro heq
    have hinside := hbound.inside
    have hnumber := hbound.number
    rw [heq] at hinside hnumber
    exact hused (hnumber.symm.trans (hlinked.free hinside))
  unfold renameUnlink Prog.Returns
  rw [Prog.wp_bind]
  refine Prog.Returns.mono (linkcountUp_wp hvolume (hstays g1 ino hg1) hroom) ?_
  rintro _ fs₁ ⟨hvolume₁, hkeeps₁, hstays₁⟩
  have hdir₁ := hstays₁ dir 1 (hstays dir 1 hdir)
  have hg1₁ := hstays₁ g1 ino (hstays g1 ino hg1)
  have hbound₁ : fs₁.BoundAt slot1 n1.val ino :=
    (hkeeps₁.boundAt hroot).mpr ((hlinked.written.boundAt hlinked.inside hne).mpr hbound)
  have hrootDir₁ : RootDir n live dir fs₁ :=
    ⟨hvolume₁.files, hdir₁, hvolume₁.type_loaded hdir₁, hkeeps₁.dirSize hroot hlinked.dir.size,
      hkeeps₁.dirNames hroot hlinked.dir.names⟩
  rw [Prog.wp_bind, Prog.wp_attempt]
  refine Prog.wp_mono (sfsDirUnlink_wp hrootDir₁ hbound₁.inside
    (by rw [hbound₁.number]; exact hused)) ?_ (fun _ _ hfails => hfails.elim) (fun _ hbad => hbad)
  intro _ fs₂ hunlinked
  have hvolume₂ := hvolume₁.only hdir₁ hunlinked.written.only hunlinked.written.files
  have hstays₂ := hunlinked.written.only.staysLoaded
  have hcount : Function.update fs.linkcounts ino (fs.linkcounts ino + 1) ino =
      fs.linkcounts ino + 1 := Function.update_self _ _ _
  simp only [↓Prog.wp_bind]
  refine Prog.Returns.mono (linkcountDown_wp hvolume₂ (hstays₂ g1 ino hg1₁) (by omega)
    (by omega) .renameUnlinked) ?_
  rintro _ fs₃ ⟨hvolume₃, hkeeps₃, hstays₃⟩
  rw [hcount, Function.update_idem, Nat.add_sub_cancel, Function.update_eq_self] at hvolume₃
  refine Prog.Returns.mono (hvolume₃.giveBack (hstays₃ g1 ino (hstays₂ g1 ino hg1₁))
    (linkcounts_root fs) hbound.linked) ?_
  rintro _ fs₄ ⟨hvolume₄, hkeeps₄⟩
  have hafter := hkeeps₃.trans hkeeps₄
  -- the entry that came and the entry that went name the same inode
  have hlinks : ∀ other, other ≠ 0 → fs₄.linkcounts other = fs.linkcounts other := by
    intro other hother
    have hmore := hlinked.links other hother
    have hless := hunlinked.links other hother
    rw [hbound₁.number, hkeeps₁.links hroot] at hless
    rw [SfsFs.linkcounts, SfsFs.linkcounts, hafter.links hroot]
    omega
  have hunbound : ∀ other, ¬ fs.Binds n2.val other := by
    rintro other ⟨slot, hat⟩
    refine hlinked.absent slot hat.inside ?_ hat.called
    rw [hat.number]
    exact hat.used
  refine ⟨⟨hvolume₄.congr hlinks, hafter.dirSize hroot hunlinked.dir.size,
    hafter.dirNames hroot hunlinked.dir.names⟩, ⟨ino, slot1, hbound⟩, hunbound, ?_,
    h.volume.linkcounts_eq hvolume₄, ?_⟩
  · intro name other
    rw [hafter.binds hroot, hunlinked.binds hrootDir₁.names hbound₁, hkeeps₁.binds hroot,
      hlinked.binds hfits hused]
    have hdifferent : n2.val ≠ n1.val := by
      intro heq
      refine hlinked.absent slot1 hbound.inside ?_ (hbound.called.trans heq.symm)
      rw [hbound.number]
      exact hused
    constructor
    · rintro ⟨hcases, hname⟩
      rcases hcases with hold | ⟨hnew, hother⟩
      · right
        refine ⟨hname, ?_, hold⟩
        intro heq
        rw [heq] at hold
        exact hunbound other hold
      · left
        rw [hother]
        exact ⟨hnew, slot1, hbound⟩
    · intro hcases
      rcases hcases with ⟨hname, hold⟩ | ⟨hname, _, hold⟩
      · rw [hname]
        exact ⟨Or.inr ⟨rfl, h.names.ino_eq hold ⟨slot1, hbound⟩⟩, hdifferent⟩
      · exact ⟨Or.inl hold, hname⟩
  · exact (((hlinked.written.only.elsewhere h.files hdir).trans hkeeps₁.elsewhere).trans
      (hunlinked.written.only.elsewhere hvolume₁.files hdir₁)).trans hafter.elsewhere

theorem renameLink_wp (h : Sound n live (oneMore refs g1) fs) (hdir : Loaded fs dir 1)
    (hg1 : Loaded fs g1 ino) (hbound : fs.BoundAt slot1 n1.val ino) (hfile : ino ≠ 1) :
    Prog.wp (renameLink dir n2 g1 slot1)
      (fun _ fs' => Sound n live refs fs' ∧ Renamed live n1.val n2.val fs fs')
      (fun _ fs' => Sound n live refs fs' ∧ Unchanged live fs fs') (fun _ => False) fs := by
  have hfits : ino < 2 ^ 32 := by
    have hin := (h.files.inode_used (h.alive hbound)).1
    have hsized := h.files.sized.high
    rw [h.files.guarded.nblocks] at hin
    omega
  unfold renameLink
  simp only [↓Prog.wp_bind, ↓Prog.wp_get, ↓Prog.wp_assert, ↓Prog.wp_attempt]
  rw [h.volume.type_loaded hg1, typeOf, if_neg hfile, if_pos rfl, hg1.ino]
  refine Prog.wp_mono (sfsDirLink_wp (h.rootDir hdir) n2 hfits) ?_ ?_ (fun _ hbad => hbad)
  · intro slot2 fs' hlinked
    exact Prog.wp_mono (renameUnlink_wp h hdir hg1 hbound hlinked) (fun _ _ hdone => hdone)
      (fun _ _ hfails => hfails.elim) (fun _ hbad => hbad)
  · rintro code fs' ⟨hsame, _⟩
    exact Prog.wp_mono (puke_wp h hdir hg1 hbound.linked hsame) (fun _ _ hdone => hdone.elim)
      (fun _ _ hfails => hfails) (fun _ hbad => hbad)

/-! The whole call. -/

theorem Unchanged.trans (hfirst : Unchanged live fs fs') (hsecond : Unchanged live fs' fs'') :
    Unchanged live fs fs'' where
  names name ino := (hsecond.names name ino).trans (hfirst.names name ino)
  linkcounts ino hlive := (hsecond.linkcounts ino hlive).trans (hfirst.linkcounts ino hlive)
  elsewhere := hfirst.elsewhere.trans hsecond.elsewhere

theorem Unchanged.renamed {name1 name2 : List Byte} (hfirst : Unchanged live fs fs')
    (hsecond : Renamed live name1 name2 fs' fs'') : Renamed live name1 name2 fs fs'' where
  bound := by
    obtain ⟨ino, hbinds⟩ := hsecond.bound
    exact ⟨ino, (hfirst.names name1 ino).mp hbinds⟩
  unbound ino hbinds := hsecond.unbound ino ((hfirst.names name2 ino).mpr hbinds)
  names name ino := by
    rw [hsecond.names, hfirst.names, hfirst.names]
  linkcounts ino hlive := (hsecond.linkcounts ino hlive).trans (hfirst.linkcounts ino hlive)
  elsewhere := hfirst.elsewhere.trans hsecond.elsewhere

/-- Vnodes come and go without a trace in the files. -/
theorem Sound.unchanged {refs' : Nat → Nat} (h : Sound n live refs fs)
    (hvolume : Volume n live fs.linkcounts refs' fs') (hkeeps : Keeps live fs fs') :
    Unchanged live fs fs' :=
  ⟨fun _ _ => hkeeps.binds h.volume.root, h.volume.linkcounts_eq hvolume, hkeeps.elsewhere⟩

theorem sfsRename_wp (h : Sound n live refs fs) (hdir : Loaded fs dir 1) (hmem : mem.Fresh fs)
    (hfile : ¬ fs.Binds n1.val 1) :
    Prog.wp (sfsRename dir n1 dir n2 mem)
      (fun _ fs' => Sound n live refs fs' ∧ Renamed live n1.val n2.val fs fs')
      (fun _ fs' => Sound n live refs fs' ∧ Unchanged live fs fs') (fun _ => False) fs := by
  have hroot := h.volume.root
  unfold sfsRename
  simp only [↓Prog.wp_bind, ↓Prog.wp_assert, ↓Prog.wp_get]
  rw [if_pos trivial, hdir.ino, if_pos rfl]
  refine Prog.wp_mono (sfsLookonce_wp h hdir n1 hmem) ?_ ?_ (fun _ hbad => hbad)
  · rintro ⟨g1, slot1⟩ fs₁ ⟨ino, hbound, hout⟩
    have hsound := h.keep hout.keeps hroot hout.volume
    have hbefore := h.unchanged hout.volume hout.keeps
    have hne : ino ≠ 1 := by
      intro heq
      rw [heq] at hbound
      exact hfile ⟨slot1, hbound⟩
    refine Prog.wp_mono (renameLink_wp hsound (hout.stays dir 1 hdir) hout.loaded
      ((hout.keeps.boundAt hroot).mpr hbound) hne) ?_ ?_ (fun _ hbad => hbad)
    · rintro _ fs₂ ⟨hsound', hrenamed⟩
      exact ⟨hsound', hbefore.renamed hrenamed⟩
    · rintro code fs₂ ⟨hsound', hunchanged⟩
      exact ⟨hsound', hbefore.trans hunchanged⟩
  · rintro code fs₁ ⟨huntouched, _⟩
    exact ⟨h.keep huntouched.keeps hroot huntouched.volume,
      h.unchanged huntouched.volume huntouched.keeps⟩

/-- The root directory under a name of its own is not a file, and the kernel stops. -/
theorem sfsRename_stops (h : Sound n live refs fs) (hdir : Loaded fs dir 1)
    (hmem : mem.Fresh fs) (hbinds : fs.Binds n1.val 1) :
    Prog.wp (sfsRename dir n1 dir n2 mem) (fun _ _ => False) (fun _ _ => False) (fun _ => True)
      fs := by
  unfold sfsRename
  simp only [↓Prog.wp_bind, ↓Prog.wp_assert, ↓Prog.wp_get]
  rw [if_pos trivial, hdir.ino, if_pos rfl]
  refine Prog.wp_mono (sfsLookonce_wp h hdir n1 hmem) ?_ ?_ (fun _ hbad => hbad.elim)
  · rintro ⟨g1, slot1⟩ fs₁ ⟨ino, hbound, hout⟩
    obtain rfl : ino = 1 := h.names.ino_eq ⟨slot1, hbound⟩ hbinds
    unfold renameLink
    simp only [↓Prog.wp_bind, ↓Prog.wp_get, ↓Prog.wp_assert]
    rw [hout.volume.type_loaded hout.loaded, if_neg (by decide)]
    trivial
  · rintro code fs₁ ⟨_, hnone⟩
    have hloaded : fs.loaded 1 = some dir := by
      rw [← hdir.ino]
      exact h.files.loaded_eq hdir.mem
    rw [hnone 1 hbinds] at hloaded
    cases hloaded

end OS161.Sfs
