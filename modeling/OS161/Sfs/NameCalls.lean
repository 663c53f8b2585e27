import OS161.Sfs.Creat
import OS161.Sfs.Lookups

namespace OS161.Sfs

open OS161.Data
open OS161.Kern
open OS161.Lib
open OS161.Vfs

/-! The calls that change names, and what they do to the store. -/

variable {fs fs' fs'' : SfsFs} {live : Nat → Bool} {refs refs' : Nat → Nat}
variable {dir sv ino n slot : Nat} {name n1 n2 : Name} {mem : Memory}

/-! Why a name is not entered. -/

/-- Why a new name is not entered, where at most `blocks` blocks are needed: it is too long,
blocks are short, or the directory has all the blocks that a file can have. -/
inductive NoRoom (blocks : Nat) (fs : SfsFs) (name : Name) : Prop where
  | long (hlong : 60 ≤ name.val.length)
  | short (hshort : fs.freeBlocks < blocks)
  | full (hfull : 143 * 8 ≤ fs.freeSlot)

theorem NotLinked.why {freemap : Bitmap} (hnames : DirNames fs)
    (hnot : NotLinked fs name freemap) :
    fs.tree.names name.val ≠ none ∨ NoRoom 2 fs name := by
  cases hnot with
  | bound slot hslot hused hname =>
      refine Or.inl fun hnone => ?_
      exact (tree_names_none hnames).mp hnone _ ⟨slot, hslot, rfl, hused, hname⟩
  | long hlong => exact Or.inr (.long hlong)
  | noEntry _ hnone =>
      cases hnone with
      | full _ _ hspace =>
          have hshort := hspace.short
          have hmost := lacks_le fs 1 (fs.freeSlot * 64 / 512)
          exact Or.inr (.short (by omega))
      | past hpast => exact Or.inr (.full (by omega))

theorem NoRoom.mono {blocks : Nat} (hroom : NoRoom 2 fs' name)
    (hfree : fs.freeBlocks + 2 ≤ fs'.freeBlocks + blocks) (hslot : fs'.freeSlot = fs.freeSlot) :
    NoRoom blocks fs name := by
  cases hroom with
  | long hlong => exact .long hlong
  | short hshort => exact .short (by omega)
  | full hfull =>
      rw [hslot] at hfull
      exact .full hfull

/-! The directory as it was. -/

theorem DirSame.sound (h : Sound n live refs fs) (hdir : Loaded fs dir 1)
    (hsame : DirSame n live dir fs fs') : Sound n live refs fs' := by
  have hcount : fs'.linkcounts = fs.linkcounts := by
    funext other
    rw [SfsFs.linkcounts, SfsFs.linkcounts, hsame.links]
  refine ⟨?_, hsame.size, (hsame.rootDir (h.rootDir hdir)).names⟩
  rw [hcount]
  exact h.volume.only hdir hsame.only hsame.files

/-! A name more. -/

/-- The name leads to the inode, which counts it. -/
structure Entered (n : Nat) (live : Nat → Bool) (refs : Nat → Nat) (fs : SfsFs) (name : Name)
    (ino : Nat) (fs' : SfsFs) : Prop where
  sound : Sound n live refs fs'
  unbound : ∀ other, ¬ fs.Binds name.val other
  names : ∀ name' other, fs'.Binds name' other ↔
    fs.Binds name' other ∨ name' = name.val ∧ other = ino
  stays : StaysLoaded fs fs'
  elsewhere : Elsewhere live fs fs'

theorem Sound.ino_lt (h : Sound n live refs fs) (hlive : live ino = true) : ino < 2 ^ 32 := by
  have hin := (h.files.inode_used hlive).1
  have hsized := h.files.sized.high
  rw [h.files.guarded.nblocks] at hin
  omega

theorem Linked.enters (h : Sound n live refs fs) (hdir : Loaded fs dir 1)
    (hfile : Loaded fs sv ino) (hlinked : Linked n live dir fs name ino slot fs') :
    Prog.Returns (linkcountUp sv) (fun _ fs'' => Entered n live refs fs name ino fs'') fs' := by
  have hroot := h.volume.root
  have hlive := hfile.alive h.files
  have hzero := h.files.ne_zero hlive
  have hvolume := h.volume.only hdir hlinked.written.only hlinked.written.files
  have hstays := hlinked.written.only.staysLoaded
  refine Prog.Returns.mono (linkcountUp_wp hvolume (hstays sv ino hfile) (h.linkcounts_lt ino)) ?_
  rintro _ fs'' ⟨hvolume', hkeeps, hstays'⟩
  have hlinks : ∀ other, other ≠ 0 →
      fs''.linkcounts other = Function.update fs.linkcounts ino (fs.linkcounts ino + 1) other := by
    intro other hother
    have hmore := hlinked.links other hother
    rw [SfsFs.linkcounts, hkeeps.links hroot, hmore]
    by_cases heq : other = ino
    · rw [heq, Function.update_self, if_pos rfl, SfsFs.linkcounts]
      omega
    · rw [Function.update_of_ne heq, if_neg (Ne.symm heq), SfsFs.linkcounts, Nat.add_zero]
  refine ⟨⟨hvolume'.congr hlinks, hkeeps.dirSize hroot hlinked.dir.size,
    hkeeps.dirNames hroot hlinked.dir.names⟩, ?_, ?_, ?_, ?_⟩
  · rintro other ⟨slot', hat⟩
    exact hlinked.absent slot' hat.inside (by rw [hat.number]; exact hat.used) hat.called
  · intro name' other
    rw [hkeeps.binds hroot, hlinked.binds (h.ino_lt hlive) hzero]
  · exact fun other ino' hloaded => hstays' other ino' (hstays other ino' hloaded)
  · exact (hlinked.written.only.elsewhere h.files hdir).trans hkeeps.elsewhere

/-- The new name in the store. -/
theorem Entered.names_after (hnames : DirNames fs)
    (hentered : Entered n live refs fs name ino fs') (name' : List Byte) (other : Nat) :
    fs'.Binds name' other ↔
      Function.update fs.tree.names name.val (some ino) name' = some other := by
  rw [hentered.names]
  by_cases heq : name' = name.val
  · rw [heq, Function.update_self]
    constructor
    · rintro (hold | ⟨_, rfl⟩)
      · exact absurd hold (hentered.unbound other)
      · rfl
    · intro hsome
      exact Or.inr ⟨rfl, (Option.some.inj hsome).symm⟩
  · rw [Function.update_of_ne heq, tree_names hnames]
    simp [heq]

/-- `sfs_link` gives the file a name. -/
theorem sfsLink_yields (h : Orderly n fs) (hdir : Loaded fs dir 1) (hfile : Loaded fs sv ino) :
    Prog.wp (sfsLink dir name sv) (fun _ fs' => Yields n fs (.link name.val ino) fs')
      (fun _ fs' => Yields n fs .none fs' ∧
        (fs.tree.names name.val ≠ none ∨ NoRoom 2 fs name)) (fun _ => False) fs := by
  have hlive := hfile.alive h.sound.files
  unfold sfsLink
  simp only [↓Prog.wp_bind, ↓Prog.wp_get]
  rw [hfile.ino]
  refine Prog.wp_mono (sfsDirLink_wp (h.sound.rootDir hdir) name (h.sound.ino_lt hlive)) ?_ ?_
    (fun _ hbad => hbad)
  · intro slot fs₁ hlinked
    refine Prog.wp_mono (hlinked.enters h.sound hdir hfile) ?_ (fun _ _ hfails => hfails.elim)
      (fun _ hbad => hbad)
    intro _ fs₂ hentered
    have henabled : fs.tree.Enabled (.link name.val ino) :=
      ⟨(tree_names_none h.sound.names).mpr hentered.unbound, sv, tree_handles.mpr hfile⟩
    exact h.yields_kept hentered.sound henabled (hentered.names_after h.sound.names)
      (fun other ino' hother => hentered.stays other ino' (tree_handles.mp hother))
      (fun _ heq => by cases heq) (fun _ heq => by cases heq) hentered.elsewhere (fun _ _ => rfl)
  · rintro code fs₁ ⟨hsame, hnot⟩
    refine ⟨h.yields_none (hsame.sound h.sound hdir) (fun _ _ => hsame.binds)
      hsame.only.staysLoaded (hsame.only.elsewhere h.sound.files hdir), hnot.why h.sound.names⟩

/-! A file more. -/

/-- The new file, under its name. -/
theorem Made.yields (h : Orderly n fs)
    (hnone : ∀ other, ¬ fs.Binds name.val other)
    (hmade : Made n fs.alive fs.linkcounts fs.tree.refs fs ino sv fs')
    (hentered : Entered n (Function.update fs.alive ino true) (oneMore fs.tree.refs sv) fs' name
      ino fs'') : Yields n fs (.make name.val ino sv) fs'' := by
  have hroot := h.sound.volume.root
  have hnames := h.sound.names
  have hnew := hmade.new
  have henabled : fs.tree.Enabled (.make name.val ino sv) := by
    refine ⟨(tree_names_none hnames).mpr hnone, fun halive => ?_, tree_handles_none.mpr hmade.free⟩
    rw [h.alive_iff.mpr (Or.inr halive)] at hnew
    cases hnew
  have hothers : ∀ other, other ≠ 1 → other ≠ ino → Function.update fs.alive ino true other = true →
      fs.alive other = true ∧ fs''.tree.data other = fs.tree.data other := by
    intro other hne hother halive
    have hafter := hentered.elsewhere.data hne halive
    rw [Function.update_of_ne hother] at halive
    exact ⟨halive, hafter.trans (hmade.keeps.elsewhere.data hne halive)⟩
  have hempty : fs''.tree.data ino = FileData.empty := by
    rw [hentered.elsewhere.data (hmade.file_ne_root h.sound) (Function.update_self _ _ _)]
    show FileData.mk (fileBytes (fs'.file ino)) ((fs'.inode ino).get sfiSize) = _
    rw [hmade.file, hmade.loaded.inode hmade.volume.files]
    have hsize : (fs'.vnode sv).svI.get sfiSize = 0 := hmade.size
    rw [hsize]
    unfold FileData.empty
    congr 1
    funext pos
    exact Record.bytes_zeros _
  refine h.yields hentered.sound henabled ?_ ?_ ?_ ?_ ?_
  · intro name' other
    rw [hentered.names, hmade.keeps.binds hroot, FlatStore.namesAfter]
    by_cases heq : name' = name.val
    · rw [heq, Function.update_self]
      constructor
      · rintro (hold | ⟨_, rfl⟩)
        · exact absurd hold (hnone other)
        · rfl
      · intro hsome
        exact Or.inr ⟨rfl, (Option.some.inj hsome).symm⟩
    · rw [Function.update_of_ne heq, tree_names hnames]
      simp [heq]
  · intro other ino' hother
    rw [FlatStore.handlesAfter] at hother
    by_cases heq : other = sv
    · rw [heq, Function.update_self] at hother
      rw [heq, ← Option.some.inj hother]
      exact hentered.stays sv ino hmade.loaded
    · rw [Function.update_of_ne heq] at hother
      exact hentered.stays other ino' (hmade.stays other ino' (tree_handles.mp hother))
  · intro other halive
    by_cases heq : other = ino
    · rw [heq]
      exact Or.inr (Or.inl ⟨name.val, by rw [FlatStore.namesAfter, Function.update_self]⟩)
    · rw [Function.update_of_ne heq] at halive
      exact h.alive_after henabled (fun _ heq => by cases heq) (fun _ heq => by cases heq) halive
  · intro other hne halive
    by_cases heq : other = ino
    · rw [heq, hempty, FlatStore.Leaves, if_pos rfl]
    · rw [(hothers other hne heq halive).2, FlatStore.Leaves, if_neg (Ne.symm heq)]
  · intro other hne halive
    by_cases heq : other = ino
    · rw [heq, hempty]
      decide
    · obtain ⟨hbefore, hdata⟩ := hothers other hne heq halive
      rw [hdata]
      exact h.sizes other hbefore

/-- The new file goes again where it gets no name. -/
theorem Made.undone (h : Orderly n fs) (hdir : Loaded fs dir 1)
    (hmade : Made n fs.alive fs.linkcounts fs.tree.refs fs ino sv fs')
    (hsame : DirSame n (Function.update fs.alive ino true) dir fs' fs'') :
    Prog.Returns (vopDecref sv) (fun _ last => Yields n fs .none last) fs'' := by
  obtain ⟨hlast, hunlinked⟩ := hmade.last h.sound
  have hroot := h.sound.volume.root
  have hdir' := hmade.stays dir 1 hdir
  have hloaded := hsame.only.staysLoaded sv ino hmade.loaded
  have hsound := hmade.sound h.sound
  have hvolume := hmade.volume.only hdir' hsame.only hsame.files
  refine Prog.Returns.mono (vopDecref_wp hvolume hloaded (linkcounts_root fs)) ?_
  intro _ last hback
  have hremaining : remaining (Function.update fs.alive ino true) fs.linkcounts
      (oneMore fs.tree.refs sv) sv ino = fs.alive := by
    rw [remaining_gone ⟨hlast, hunlinked⟩, Function.update_idem, ← hmade.new,
      Function.update_eq_self]
  have hafter := hback.volume
  have hkeeps := hback.keeps
  rw [hremaining] at hafter hkeeps
  rw [oneLess_oneMore] at hafter
  have hentry : last.entry = fs.entry := by
    rw [hkeeps.entry hroot, hsame.entry, hmade.keeps.entry hroot]
  have hslots : last.slots = fs.slots := by
    rw [hkeeps.slots hroot, hsame.slots, hmade.keeps.slots hroot]
  have hcount : last.linkcounts = fs.linkcounts := by
    funext other
    rw [SfsFs.linkcounts, SfsFs.linkcounts, SfsFs.links, SfsFs.links, hentry, hslots]
  have hfewer : ∀ other, fs.alive other = true → Function.update fs.alive ino true other = true := by
    intro other halive
    by_cases heq : other = ino
    · rw [heq, Function.update_self]
    · rw [Function.update_of_ne heq]
      exact halive
  have helse : Elsewhere fs.alive fs last := by
    have hmid := hsame.only.elsewhere hmade.volume.files hdir'
    refine (hmade.keeps.elsewhere.trans ⟨?_, ?_⟩).trans hkeeps.elsewhere
    · exact fun other halive hne => hmid.file other (hfewer other halive) hne
    · exact fun other halive hne => hmid.size other (hfewer other halive) hne
  have hsound' : Sound n fs.alive fs.tree.refs last := by
    refine ⟨by rw [hcount]; exact hafter, hkeeps.dirSize hroot hsame.size, ?_⟩
    exact hkeeps.dirNames hroot (hsame.rootDir (hsound.rootDir hdir')).names
  refine h.yields_none hsound' (fun _ _ => binds_congr hentry hslots) ?_ helse
  intro other ino' hother
  refine hback.loaded (hsame.only.staysLoaded other ino' (hmade.stays other ino' hother)) ?_
  rintro rfl
  exact absurd hother.mem hmade.free

/-- `sfs_creat` hands out the file with the name, or makes an empty one. -/
theorem sfsCreat_yields (h : Orderly n fs) (hdir : Loaded fs dir 1) (hmem : mem.Fresh fs)
    (excl : Bool) :
    Prog.wp (sfsCreat dir name excl mem)
      (fun sv fs' => ∃ ino, excl = false ∧ fs.tree.names name.val = some ino ∧
          Yields n fs (.hold sv ino) fs' ∨
        Yields n fs (.make name.val ino sv) fs')
      (fun _ fs' => Yields n fs .none fs' ∧
        (excl = true ∧ fs.tree.names name.val ≠ none ∨ ¬ mem.Enough ∨ NoRoom 3 fs name)) (fun _ => False) fs := by
  have hroot := h.sound.volume.root
  unfold sfsCreat
  rw [Prog.wp_bind]
  refine Prog.wp_mono (sfsDirFindname_wp (h.sound.rootDir hdir) name) ?_
    (fun _ _ hfails => hfails.elim) (fun _ hbad => hbad)
  rintro scan _ ⟨hscan, hsame⟩
  rw [hsame]
  split
  case h_1 slot ino hfound =>
      have hbound := hscan.bound hfound
      have hname := (tree_names h.sound.names).mpr ⟨slot, hbound⟩
      simp only [↓Prog.wp_bind, ↓Prog.wp_when, ↓Prog.wp_fail]
      split
      case isTrue hexcl =>
          refine ⟨(Untouched.refl h.sound.volume).yields h, Or.inl ⟨hexcl, ?_⟩⟩
          rw [hname]
          simp
      case isFalse hexcl =>
          refine Prog.wp_mono (Prog.wp_and (sfsLoadvnode_wp h.sound.volume (h.sound.alive hbound)
            hmem) (sfsLoadvnode_reason h.sound.volume (h.sound.alive hbound))) ?_ ?_
            (fun _ hbad => hbad.1)
          · rintro sv fs' ⟨hout, _⟩
            exact ⟨ino, Or.inl ⟨by simpa using hexcl, hname, hout.yields h⟩⟩
          · rintro code fs' ⟨⟨huntouched, _⟩, _, hshort⟩
            exact ⟨huntouched.yields h, Or.inr (Or.inl hshort)⟩
  case h_2 hnone =>
      have hunbound : ∀ other, ¬ fs.Binds name.val other := fun _ => hscan.unbound hnone
      rw [Prog.wp_bind]
      refine Prog.wp_mono (sfsMakeobj_wp h.sound.volume hdir hmem) ?_ ?_ (fun _ hbad => hbad)
      · rintro sv fs₁ ⟨ino, hmade, hin⟩
        have hsound := hmade.sound h.sound
        have hdir' := hmade.stays dir 1 hdir
        unfold creatLink
        simp only [↓Prog.wp_bind, ↓Prog.wp_get, ↓Prog.wp_attempt]
        rw [hmade.loaded.ino]
        refine Prog.wp_mono (sfsDirLink_wp (hsound.rootDir hdir') name
          (hsound.ino_lt (Function.update_self _ _ _))) ?_ ?_ (fun _ hbad => hbad)
        · intro slot fs₂ hlinked
          refine Prog.wp_mono (hlinked.enters hsound hdir' hmade.loaded) ?_
            (fun _ _ hfails => hfails.elim) (fun _ hbad => hbad)
          intro _ fs₃ hentered
          exact ⟨ino, Or.inr (hmade.yields h hunbound hentered)⟩
        · rintro code fs₂ ⟨hsame', hnot⟩
          simp only [puke, ↓Prog.wp_bind, ↓Prog.wp_fail]
          refine Prog.wp_mono (hmade.undone h hdir hsame') ?_ (fun _ _ hfails => hfails.elim)
            (fun _ hbad => hbad)
          intro _ fs₃ hyields
          refine ⟨hyields, Or.inr (Or.inr ?_)⟩
          rcases hnot.why hsound.names with hbound | hroom
          · refine absurd ((tree_names_none hsound.names).mpr fun other hbinds => ?_) hbound
            exact hunbound other ((hmade.keeps.binds hroot).mp hbinds)
          · have hcount := hin.count
            exact hroom.mono (by omega) (hmade.freeSlot h.sound)
      · rintro code fs₁ ⟨huntouched, hnot⟩
        refine ⟨huntouched.yields h, ?_⟩
        generalize fs₁.sfsFreemap = freemap at hnot
        cases hnot with
        | full hfull => exact Or.inr (Or.inr (.short (by omega)))
        | memory _ _ hshort => exact Or.inr (Or.inl hshort)

/-! A name less. -/

/-- The link counts once an entry of the inode is gone. -/
def SfsFs.oneLink (fs : SfsFs) (ino : Nat) : Nat → Nat :=
  Function.update fs.linkcounts ino (fs.linkcounts ino - 1)

theorem oneLink_root (hbound : fs.BoundAt slot name.val ino) : 0 < fs.oneLink ino 1 := by
  rw [SfsFs.oneLink]
  by_cases heq : 1 = ino
  · have hlinks := links_pos_iff.mpr ⟨slot, hbound.inside, hbound.number⟩
    rw [← heq, Function.update_self, SfsFs.linkcounts, if_pos rfl]
    rw [← heq] at hlinks
    omega
  · rw [Function.update_of_ne heq]
    exact linkcounts_root fs

/-- A name is gone, and the file with it where that was the last and nobody holds it. -/
theorem Orderly.removed (h : Orderly n fs) (hbound : fs.BoundAt slot name.val ino)
    (hlinks : ∀ other, other ≠ 0 →
      fs'.links other + (if ino = other then 1 else 0) = fs.links other)
    (hnames : ∀ name' other, fs'.Binds name' other ↔ fs.Binds name' other ∧ name' ≠ name.val)
    (hsize : DirSize fs') (hdirNames : DirNames fs')
    (hvolume : Volume n (remaining fs.alive (fs.oneLink ino) (oneMore fs.tree.refs sv) sv ino)
      (fs.oneLink ino) fs.tree.refs fs')
    (hheld : StaysLoaded fs fs')
    (helse : Elsewhere (remaining fs.alive (fs.oneLink ino) (oneMore fs.tree.refs sv) sv ino)
      fs fs')
    (hloaded : 0 < fs.tree.refs sv → Loaded fs sv ino) : Yields n fs (.unlink name.val) fs' := by
  have hfiles := h.sound.names
  have hname := (tree_names hfiles).mpr ⟨slot, hbound⟩
  have hcount : ∀ other, other ≠ 0 → fs'.linkcounts other = fs.oneLink ino other := by
    intro other hother
    have hmore := hlinks other hother
    by_cases heq : other = ino
    · rw [if_pos heq.symm] at hmore
      rw [SfsFs.oneLink, heq, Function.update_self, SfsFs.linkcounts, SfsFs.linkcounts, ← heq]
      omega
    · rw [if_neg (Ne.symm heq)] at hmore
      rw [SfsFs.oneLink, Function.update_of_ne heq, SfsFs.linkcounts, SfsFs.linkcounts]
      omega
  have hsound : Sound n _ fs.tree.refs fs' := ⟨hvolume.congr hcount, hsize, hdirNames⟩
  have hafter : ∀ name' other, fs'.Binds name' other ↔
      fs.tree.namesAfter (.unlink name.val) name' = some other := by
    intro name' other
    rw [hnames, FlatStore.namesAfter]
    by_cases heq : name' = name.val
    · rw [heq, Function.update_self]
      simp
    · rw [Function.update_of_ne heq, tree_names hfiles]
      simp [heq]
  refine h.yields hsound (by rw [FlatStore.Enabled, hname]; simp) hafter ?_ ?_ ?_ ?_
  · exact fun other ino' hother => hheld other ino' (tree_handles.mp hother)
  · intro other hremains
    obtain ⟨halive, hgone⟩ := alive_of_remaining hremains
    rcases h.alive_iff.mp halive with hroot | ⟨name', hname'⟩ | hholds
    · exact Or.inl hroot
    · by_cases heq : name' = name.val
      · -- the name that goes was one of this file
        have hino : other = ino := by
          rw [heq, hname] at hname'
          exact (Option.some.inj hname').symm
        by_cases hrefs : 0 < fs.tree.refs sv
        · refine Or.inr (Or.inr ⟨sv, ?_⟩)
          rw [hino]
          exact tree_handles.mpr (hloaded hrefs)
        · by_cases hone : ino = 1
          · exact Or.inl (hino.trans hone)
          · have hlast : oneMore fs.tree.refs sv sv = 1 := by
              rw [oneMore_self]
              omega
            have hleft : fs'.links ino ≠ 0 := by
              intro hnone
              refine hgone hino ⟨hlast, ?_⟩
              rw [← hcount ino hbound.used, SfsFs.linkcounts, hnone, if_neg hone]
            obtain ⟨name'', hbinds⟩ := (binds_iff_links hbound.used).mpr hleft
            rw [hino]
            exact Or.inr (Or.inl ⟨name'', (hafter name'' ino).mp hbinds⟩)
      · refine Or.inr (Or.inl ⟨name', ?_⟩)
        rw [FlatStore.namesAfter, Function.update_of_ne heq]
        exact hname'
    · exact Or.inr (Or.inr hholds)
  · exact fun other hne hremains => helse.data hne hremains
  · intro other hne hremains
    rw [helse.data hne hremains]
    exact h.sizes other (alive_of_remaining hremains).1

/-- `sfs_remove` takes the name away. -/
theorem sfsRemove_yields (h : Orderly n fs) (hdir : Loaded fs dir 1) (hmem : mem.Fresh fs) :
    Prog.wp (sfsRemove dir name mem) (fun _ fs' => Yields n fs (.unlink name.val) fs')
      (fun _ fs' => Yields n fs .none fs' ∧ (fs.tree.names name.val = none ∨ ¬ mem.Enough))
      (fun _ => False) fs := by
  have hroot := h.sound.volume.root
  unfold sfsRemove
  rw [Prog.wp_bind]
  refine Prog.wp_mono (Prog.wp_and (sfsLookonce_wp h.sound hdir name hmem)
    (sfsLookonce_reason h.sound hdir)) ?_ ?_ (fun _ hbad => hbad.1)
  · rintro ⟨sv, slot⟩ fs₁ ⟨⟨ino, hbound, hout⟩, _⟩
    have hsound₁ := h.sound.keep hout.keeps hroot hout.volume
    have hdir₁ := hout.stays dir 1 hdir
    have hbound₁ := (hout.keeps.boundAt hroot).mpr hbound
    have hlinks : 0 < fs.linkcounts ino := hbound.linked
    have hroom := h.sound.linkcounts_lt ino
    rw [Prog.wp_bind, Prog.wp_attempt]
    refine Prog.wp_mono (sfsDirUnlink_wp (hsound₁.rootDir hdir₁) hbound₁.inside
      (by rw [hbound₁.number]; exact hbound₁.used)) ?_ (fun _ _ hfails => hfails.elim)
      (fun _ hbad => hbad)
    intro _ fs₂ hunlinked
    have hvolume₂ := hout.volume.only hdir₁ hunlinked.written.only hunlinked.written.files
    have hstays₂ := hunlinked.written.only.staysLoaded
    simp only [↓Prog.wp_bind]
    refine Prog.wp_mono (linkcountDown_wp hvolume₂ (hstays₂ sv ino hout.loaded) hlinks (by omega)
      .removeUnlinked) ?_ (fun _ _ hfails => hfails.elim) (fun _ hbad => hbad)
    rintro _ fs₃ ⟨hvolume₃, hkeeps₃, hstays₃⟩
    have hone := oneLink_root hbound
    refine Prog.wp_mono (vopDecref_wp hvolume₃ (hstays₃ sv ino (hstays₂ sv ino hout.loaded)) hone)
      ?_ (fun _ _ hfails => hfails.elim) (fun _ hbad => hbad)
    intro _ fs₄ hback
    have hvolume := hback.volume
    rw [oneLess_oneMore] at hvolume
    have hafter := (hkeeps₃.mono fun other hremains => (alive_of_remaining hremains).1).trans
      hback.keeps
    have hroot' := hvolume.root
    refine h.removed hbound ?_ ?_ (hafter.dirSize hroot' hunlinked.dir.size)
      (hafter.dirNames hroot' hunlinked.dir.names) hvolume ?_ ?_ ?_
    · intro other hother
      have hless := hunlinked.links other hother
      rw [hbound₁.number, hout.keeps.links hroot] at hless
      rw [hafter.links hroot']
      exact hless
    · intro name' other
      rw [hafter.binds hroot', hunlinked.binds hsound₁.names hbound₁, hout.keeps.binds hroot]
    · intro other ino' hother
      refine hback.loaded (hstays₃ other ino' (hstays₂ other ino' (hout.stays other ino' hother))) ?_
      rintro rfl
      have hrefs := (h.sound.volume.referenced other).mp hother.mem
      show oneMore fs.tree.refs other other ≠ 1
      rw [oneMore_self]
      omega
    · have hmid := hunlinked.written.only.elsewhere hsound₁.files hdir₁
      have hfirst := (hout.keeps.elsewhere.trans hmid).trans hkeeps₃.elsewhere
      refine Elsewhere.trans ⟨?_, ?_⟩ hback.keeps.elsewhere
      · exact fun other hremains => hfirst.file other (alive_of_remaining hremains).1
      · exact fun other hremains => hfirst.size other (alive_of_remaining hremains).1
    · intro hrefs
      have hmem' := (h.sound.volume.referenced sv).mpr hrefs
      exact ⟨hmem', (hout.stays sv _ ⟨hmem', rfl⟩).ino.symm.trans hout.loaded.ino⟩
  · rintro code fs₁ ⟨⟨huntouched, _⟩, hwhy⟩
    exact ⟨huntouched.yields h, hwhy.imp (fun hnone => hnone.2) (fun hshort => hshort.2)⟩

/-! A name moved. -/

/-- Another reference is held, and the vnode stays when it is given back. -/
theorem Volume.keepsLoaded {count : Nat → Nat} (h : Volume n live count (oneMore refs sv) fs')
    (hloaded : Loaded fs' sv ino) (hroot : 0 < count 1) (hstays : StaysLoaded fs fs')
    (hheld : sv ∈ fs.sfsVnodes → 0 < refs sv) :
    Prog.Returns (vopDecref sv) (fun _ last => StaysLoaded fs last) fs' := by
  refine Prog.Returns.mono (vopDecref_wp h hloaded hroot) ?_
  intro _ last hback other ino' hother
  refine hback.loaded (hstays other ino' hother) ?_
  rintro rfl
  have hrefs := hheld hother.mem
  rw [oneMore_self]
  omega

/-- What `sfs_rename` leaves of the vnodes, and why it fails. -/
theorem sfsRename_frame (h : Sound n live refs fs) (hdir : Loaded fs dir 1)
    (hmem : mem.Fresh fs) (hfile : ¬ fs.Binds n1.val 1) :
    Prog.wp (sfsRename dir n1 dir n2 mem) (fun _ fs' => StaysLoaded fs fs')
      (fun _ fs' => StaysLoaded fs fs' ∧
        (fs.tree.names n1.val = none ∨ ¬ mem.Enough ∨ fs.tree.names n2.val ≠ none ∨
          NoRoom 2 fs n2)) (fun _ => False)
      fs := by
  have hroot := h.volume.root
  have hheld : ∀ sv, sv ∈ fs.sfsVnodes → 0 < refs sv := fun sv => (h.volume.referenced sv).mp
  unfold sfsRename
  simp only [↓Prog.wp_bind, ↓Prog.wp_assert, ↓Prog.wp_get]
  rw [if_pos trivial, hdir.ino, if_pos rfl]
  refine Prog.wp_mono (Prog.wp_and (sfsLookonce_wp h hdir n1 hmem) (sfsLookonce_reason h hdir))
    ?_ ?_ (fun _ hbad => hbad.1)
  · rintro ⟨g1, slot1⟩ fs₁ ⟨⟨ino, hbound, hout⟩, hfreemap⟩
    have hsound₁ := h.keep hout.keeps hroot hout.volume
    have hdir₁ := hout.stays dir 1 hdir
    have hbound₁ := (hout.keeps.boundAt hroot).mpr hbound
    have hne : ino ≠ 1 := by
      rintro rfl
      exact hfile ⟨slot1, hbound⟩
    unfold renameLink
    simp only [↓Prog.wp_bind, ↓Prog.wp_get, ↓Prog.wp_assert, ↓Prog.wp_attempt]
    rw [hsound₁.volume.type_loaded hout.loaded, typeOf, if_neg hne, if_pos rfl, hout.loaded.ino]
    refine Prog.wp_mono (sfsDirLink_wp (hsound₁.rootDir hdir₁) n2
      (h.ino_lt (h.alive hbound))) ?_ ?_ (fun _ hbad => hbad)
    · intro slot2 fs₂ hlinked
      have hvolume₂ := hsound₁.volume.only hdir₁ hlinked.written.only hlinked.written.files
      have hstays₂ := hlinked.written.only.staysLoaded
      have hroom := hsound₁.linkcounts_lt ino
      have hslots : slot1 ≠ slot2 := by
        rintro rfl
        exact hbound₁.used (hbound₁.number.symm.trans (hlinked.free hbound₁.inside))
      unfold renameUnlink
      simp only [↓Prog.wp_bind, ↓Prog.wp_attempt]
      rw [hout.keeps.linkcounts hroot] at hvolume₂ hroom
      refine Prog.wp_mono (linkcountUp_wp hvolume₂ (hstays₂ g1 ino hout.loaded) hroom) ?_
        (fun _ _ hfails => hfails.elim) (fun _ hbad => hbad)
      rintro _ fs₃ ⟨hvolume₃, hkeeps₃, hstays₃⟩
      have hdir₃ := hstays₃ dir 1 (hstays₂ dir 1 hdir₁)
      have hbound₃ := (hkeeps₃.boundAt hroot).mpr
        ((hlinked.written.boundAt hlinked.inside hslots).mpr hbound₁)
      have hrootDir₃ : RootDir n live dir fs₃ :=
        ⟨hvolume₃.files, hdir₃, hvolume₃.type_loaded hdir₃, hkeeps₃.dirSize hroot hlinked.dir.size,
          hkeeps₃.dirNames hroot hlinked.dir.names⟩
      refine Prog.wp_mono (sfsDirUnlink_wp hrootDir₃ hbound₃.inside
        (by rw [hbound₃.number]; exact hbound₃.used)) ?_ (fun _ _ hfails => hfails.elim)
        (fun _ hbad => hbad)
      intro _ fs₄ hunlinked
      have hvolume₄ := hvolume₃.only hdir₃ hunlinked.written.only hunlinked.written.files
      have hstays₄ := hunlinked.written.only.staysLoaded
      have hcount : Function.update fs.linkcounts ino (fs.linkcounts ino + 1) ino =
          fs.linkcounts ino + 1 := Function.update_self _ _ _
      have hg1 := hstays₄ g1 ino (hstays₃ g1 ino (hstays₂ g1 ino hout.loaded))
      refine Prog.wp_mono (linkcountDown_wp hvolume₄ hg1 (by omega) (by omega) .renameUnlinked) ?_
        (fun _ _ hfails => hfails.elim) (fun _ hbad => hbad)
      rintro _ fs₅ ⟨hvolume₅, _, hstays₅⟩
      rw [hcount, Function.update_idem, Nat.add_sub_cancel, Function.update_eq_self] at hvolume₅
      refine Prog.wp_mono (hvolume₅.keepsLoaded (hstays₅ g1 ino hg1) (linkcounts_root fs) ?_
        (hheld g1)) (fun _ _ hdone => hdone) (fun _ _ hfails => hfails.elim) (fun _ hbad => hbad)
      intro other ino' hother
      exact hstays₅ other ino' (hstays₄ other ino' (hstays₃ other ino'
        (hstays₂ other ino' (hout.stays other ino' hother))))
    · rintro code fs₂ ⟨hsame, hnot⟩
      have hvolume₂ := hsound₁.volume.only hdir₁ hsame.only hsame.files
      have hg1 := hsame.only.staysLoaded g1 ino hout.loaded
      simp only [puke, ↓Prog.wp_bind, ↓Prog.wp_fail]
      refine Prog.wp_mono (hvolume₂.keepsLoaded hg1 (linkcounts_root fs₁) (fun other ino' hother =>
        hsame.only.staysLoaded other ino' (hout.stays other ino' hother)) (hheld g1)) ?_
        (fun _ _ hfails => hfails.elim) (fun _ hbad => hbad)
      intro _ fs₃ hstays
      have hfree : fs₁.freeBlocks = fs.freeBlocks := by
        rw [SfsFs.freeBlocks, SfsFs.freeBlocks, hfreemap]
      have hslot : fs₁.freeSlot = fs.freeSlot :=
        freeSlot_congr (hout.keeps.entry hroot) (hout.keeps.slots hroot)
      refine ⟨hstays, Or.inr (Or.inr ?_)⟩
      rcases hnot.why hsound₁.names with hbound | hroom
      · refine Or.inl fun hnone => hbound ?_
        refine (tree_names_none hsound₁.names).mpr fun other hbinds => ?_
        exact (tree_names_none h.names).mp hnone other ((hout.keeps.binds hroot).mp hbinds)
      · exact Or.inr (hroom.mono (by omega) hslot)
  · rintro code fs₁ ⟨⟨huntouched, _⟩, hwhy⟩
    refine ⟨?_, hwhy.imp (fun hnone => hnone.2) (fun hshort => Or.inl hshort.2)⟩
    intro other ino' hother
    exact ⟨by rw [huntouched.table]; exact hother.mem,
      by rw [huntouched.vnode other hother.mem, hother.ino]⟩

/-- `sfs_rename` moves the name. -/
theorem sfsRename_yields (h : Orderly n fs) (hdir : Loaded fs dir 1) (hmem : mem.Fresh fs)
    (hfile : ¬ fs.Binds n1.val 1) :
    Prog.wp (sfsRename dir n1 dir n2 mem)
      (fun _ fs' => Yields n fs (.rename n1.val n2.val) fs')
      (fun _ fs' => Yields n fs .none fs' ∧
        (fs.tree.names n1.val = none ∨ ¬ mem.Enough ∨ fs.tree.names n2.val ≠ none ∨
          NoRoom 2 fs n2)) (fun _ => False)
      fs := by
  have hnames := h.sound.names
  refine Prog.wp_mono (Prog.wp_and (sfsRename_wp h.sound hdir hmem hfile)
    (sfsRename_frame h.sound hdir hmem hfile)) ?_ ?_ (fun _ hbad => hbad.1)
  · rintro _ fs' ⟨⟨hsound, hrenamed⟩, hstays⟩
    obtain ⟨ino, hbound⟩ := hrenamed.bound
    have hname1 := (tree_names hnames).mpr hbound
    have henabled : fs.tree.Enabled (.rename n1.val n2.val) :=
      ⟨by rw [hname1]; simp, (tree_names_none hnames).mpr hrenamed.unbound⟩
    refine h.yields_kept hsound henabled ?_ ?_ (fun _ heq => by cases heq)
      (fun _ heq => by cases heq) hrenamed.elsewhere (fun _ _ => rfl)
    · intro name other
      rw [hrenamed.names, FlatStore.namesAfter]
      by_cases hnew : name = n2.val
      · rw [hnew, Function.update_self, tree_names hnames]
        simp
      · rw [Function.update_of_ne hnew]
        by_cases hold : name = n1.val
        · rw [hold, Function.update_self]
          rw [hold] at hnew
          simp [hnew]
        · rw [Function.update_of_ne hold, tree_names hnames]
          simp [hnew, hold]
    · exact fun other ino' hother => hstays other ino' (tree_handles.mp hother)
  · rintro code fs' ⟨⟨hsound, hunchanged⟩, hstays, hwhy⟩
    exact ⟨h.yields_none hsound hunchanged.names hstays hunchanged.elsewhere, hwhy⟩

end OS161.Sfs
