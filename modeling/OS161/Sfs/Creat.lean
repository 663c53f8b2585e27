import OS161.Sfs.Names

namespace OS161.Sfs

open OS161.Data
open OS161.Kern
open OS161.Lib
open OS161.Vfs

/-! `sfs_creat`, and what it leaves behind when it fails. -/

variable {fs fs' fs'' : SfsFs} {live : Nat → Bool} {refs : Nat → Nat}
variable {dir newguy ino n : Nat} {name : Name} {mem : Memory}

/-- The names, the link counts and the table of vnodes are what they were. -/
structure Undone (live : Nat → Bool) (fs fs' : SfsFs) : Prop where
  entry : fs'.entry = fs.entry
  slots : fs'.slots = fs.slots
  linkcounts : ∀ ino, live ino = true →
    (fs'.inode ino).get sfiLinkcount = (fs.inode ino).get sfiLinkcount
  table : fs'.sfsVnodes = fs.sfsVnodes
  svIno : ∀ sv ∈ fs.sfsVnodes, (fs'.vnode sv).svIno = (fs.vnode sv).svIno
  refcount : ∀ sv ∈ fs.sfsVnodes, (fs'.vnode sv).vnRefcount = (fs.vnode sv).vnRefcount

/-- The free map is what it was, too. -/
structure NoTrace (live : Nat → Bool) (fs fs' : SfsFs) : Prop extends Undone live fs fs' where
  marks : ∀ b, fs'.sfsFreemap.bitmapIsset b = fs.sfsFreemap.bitmapIsset b

/-- The block of the new inode is allocated, and then memory runs out. -/
structure LosesInode (fs : SfsFs) (name : Name) (mem : Memory) : Prop where
  unbound : ∀ ino, ¬ fs.Binds name.val ino
  free : 0 < fs.freeBlocks
  memory : ¬ mem.Enough

/-- The entry goes into a new block, the first in the indirect block of the directory, and
there are only two blocks left, one of them for the inode. -/
structure LosesIndirect (fs : SfsFs) (name : Name) (mem : Memory) : Prop where
  unbound : ∀ ino, ¬ fs.Binds name.val ino
  memory : mem.Enough
  short : name.val.length < 60
  inside : fs.freeSlot * 64 / 512 < 143
  lacks : fs.lacks 1 (fs.freeSlot * 64 / 512) = 2
  free : fs.freeBlocks = 2

/-- The call loses no block. -/
structure LosesNothing (fs : SfsFs) (name : Name) (mem : Memory) : Prop where
  inode : ¬ LosesInode fs name mem
  indirect : ¬ LosesIndirect fs name mem

theorem LosesNothing.of_bound (hbinds : fs.Binds name.val ino) (mem : Memory) :
    LosesNothing fs name mem :=
  ⟨fun hloses => hloses.unbound ino hbinds, fun hloses => hloses.unbound ino hbinds⟩

/-- What a failed call comes to. -/
def Failed (live : Nat → Bool) (fs : SfsFs) (name : Name) (mem : Memory) (fs' : SfsFs) : Prop :=
  NoTrace live fs fs' ∧ LosesNothing fs name mem ∨
    ¬ NoTrace live fs fs' ∧ ¬ LosesNothing fs name mem

theorem Failed.of_noTrace (htrace : NoTrace live fs fs') (hloses : LosesNothing fs name mem) :
    Failed live fs name mem fs' :=
  Or.inl ⟨htrace, hloses⟩

theorem Failed.of_loses {b : Nat} (hbefore : fs.sfsFreemap.bitmapIsset b = false)
    (hafter : fs'.sfsFreemap.bitmapIsset b = true) (hloses : ¬ LosesNothing fs name mem) :
    Failed live fs name mem fs' := by
  refine Or.inr ⟨fun htrace => ?_, hloses⟩
  have hsame := htrace.marks b
  rw [hbefore, hafter] at hsame
  cases hsame

theorem Untouched.undone (h : Sound n live refs fs)
    (huntouched : Untouched n live fs.linkcounts refs fs fs') : Undone live fs fs' where
  entry := huntouched.keeps.entry h.volume.root
  slots := huntouched.keeps.slots h.volume.root
  linkcounts := h.volume.linkcounts_eq huntouched.volume
  table := huntouched.table
  svIno sv hmem := by rw [huntouched.vnode sv hmem]
  refcount sv hmem := by rw [huntouched.vnode sv hmem]

/-! A new file, and the directory as it was. -/

section New

variable (h : Sound n live refs fs) (hdir : Loaded fs dir 1)
  (hmade : Made n live fs.linkcounts refs fs ino newguy fs')

include h hmade

theorem Made.sound : Sound n (Function.update live ino true) (oneMore refs newguy) fs' := by
  have hroot := h.volume.root
  have hvolume := hmade.volume
  rw [← hmade.keeps.linkcounts hroot] at hvolume
  exact ⟨hvolume, hmade.keeps.dirSize hroot h.size, hmade.keeps.dirNames hroot h.names⟩

theorem Made.file_ne_root : ino ≠ 1 := by
  intro heq
  have hnew := hmade.new
  rw [heq, h.volume.root] at hnew
  cases hnew

omit h in
theorem Made.file_ne_zero : ino ≠ 0 :=
  hmade.volume.files.ne_zero (Function.update_self _ _ _)

theorem Made.last : oneMore refs newguy newguy = 1 ∧ fs.linkcounts ino = 0 := by
  have hnone := mt (h.volume.referenced newguy).mpr hmade.free
  refine ⟨?_, h.volume.unlinked ino (hmade.file_ne_zero) hmade.new⟩
  rw [oneMore_self]
  omega

theorem Made.freeSlot : fs'.freeSlot = fs.freeSlot :=
  freeSlot_congr (hmade.keeps.entry h.volume.root) (hmade.keeps.slots h.volume.root)

theorem Made.lacks (k : Nat) : fs'.lacks 1 k = fs.lacks 1 k := by
  have hroot := h.volume.root
  rw [SfsFs.lacks, SfsFs.lacks, hmade.keeps.blocks 1 _ hroot, hmade.keeps.blocks 1 _ hroot]

variable (hsame : DirSame n (Function.update live ino true) dir fs' fs'')

include hdir hsame

/-- The inode is the only block the file has. -/
theorem Made.only_inode (i : Nat) :
    (∀ slot, fs''.blockAt ino slot = i → i = 0) ↔ i ≠ ino := by
  have hne : ino ≠ (fs'.vnode dir).svIno := by
    rw [(hmade.stays dir 1 hdir).ino]
    exact hmade.file_ne_root h
  have hzero := hmade.file_ne_zero
  have hblocks : ∀ slot, fs''.blockAt ino slot = fs'.blockAt ino slot :=
    hsame.only.blockAt (Function.update_self _ _ _) hne hzero
  constructor
  · intro hall heq
    have hempty := hall .inode heq.symm
    rw [hempty] at heq
    exact hzero heq.symm
  · intro hother slot hat
    rw [hblocks] at hat
    by_cases hslot : slot = .inode
    · rw [hslot] at hat
      exact absurd hat.symm hother
    · rw [← hat]
      exact hmade.bare slot hslot

/-- The file that got no name goes again, and only what the directory lost stays lost. -/
theorem Made.decref_wp :
    Prog.Returns (vopDecref newguy)
      (fun _ last => Undone live fs last ∧ ∀ i, last.sfsFreemap.bitmapIsset i = true ↔
        fs''.sfsFreemap.bitmapIsset i = true ∧ i ≠ ino) fs'' := by
  obtain ⟨hlast, hunlinked⟩ := hmade.last h
  have hroot := h.volume.root
  have hloaded := hsame.only.staysLoaded newguy ino hmade.loaded
  have hvolume := hmade.volume.only (hmade.stays dir 1 hdir) hsame.only hsame.files
  refine Prog.Returns.mono (vopDecref_wp hvolume hloaded (linkcounts_root fs)) ?_
  intro _ last hback
  have hremaining : remaining (Function.update live ino true) fs.linkcounts
      (oneMore refs newguy) newguy ino = live := by
    rw [remaining_gone ⟨hlast, hunlinked⟩, Function.update_idem, ← hmade.new,
      Function.update_eq_self]
  have hafter := hback.volume
  have hkeeps := hback.keeps
  rw [hremaining] at hafter hkeeps
  rw [oneLess_oneMore] at hafter
  have htable : last.sfsVnodes = fs.sfsVnodes := by
    rw [hback.table, if_pos hlast, hsame.only.vnodes, hmade.table,
      List.erase_append_right _ hmade.free, List.erase_cons_head, List.append_nil]
  refine ⟨⟨?_, ?_, h.volume.linkcounts_eq hafter, htable, ?_, ?_⟩, ?_⟩
  · rw [hkeeps.entry hroot, hsame.entry, hmade.keeps.entry hroot]
  · rw [hkeeps.slots hroot, hsame.slots, hmade.keeps.slots hroot]
  · intro sv hmem
    have hne : sv ≠ newguy := by
      intro heq
      rw [heq] at hmem
      exact hmade.free hmem
    rw [hback.vnode sv hne, hsame.only.svIno, hmade.vnode sv hmem]
  · intro sv hmem
    rw [h.volume.refcount sv hmem]
    rw [← htable] at hmem
    exact hafter.refcount sv hmem
  · intro i
    rw [hback.freed hlast hunlinked, hmade.only_inode h hdir hsame]

end New

/-! The whole call. -/

/-- Where the new file gets no name. -/
theorem NotLinked.failed (h : Sound n live refs fs)
    (hmade : Made n live fs.linkcounts refs fs ino newguy fs') (hin : MadeIn fs ino mem fs')
    (hnone : ∀ other, ¬ fs.Binds name.val other) {freemap : Bitmap}
    (hnot : NotLinked fs' name freemap) {last : SfsFs} (hundone : Undone live fs last)
    (hmarks : ∀ i, last.sfsFreemap.bitmapIsset i = true ↔
      freemap.bitmapIsset i = true ∧ i ≠ ino) : Failed live fs name mem last := by
  have hroot := h.volume.root
  have hcount := hin.count
  have hfreeSlot := hmade.freeSlot h
  have hinode : ¬ LosesInode fs name mem := fun hloses => hloses.memory hin.enough
  -- without the inode the free map is as it was
  have hback : freemap = fs'.sfsFreemap → NoTrace live fs last := by
    intro hsame
    refine ⟨hundone, fun i => ?_⟩
    rw [Bool.eq_iff_iff, hmarks, hsame, hin.marks, Bitmap.isset_mark, Bool.or_eq_true,
      decide_eq_true_eq]
    constructor
    · intro ⟨hcases, hne⟩
      exact hcases.resolve_right hne
    · intro hset
      refine ⟨Or.inl hset, fun heq => ?_⟩
      rw [heq, hin.clear] at hset
      cases hset
  cases hnot with
  | bound slot hslot hused hname =>
      refine absurd ((hmade.keeps.binds hroot).mp ⟨slot, hslot, rfl, hused, hname⟩) (hnone _)
  | long hlong =>
      refine .of_noTrace (hback rfl) ⟨hinode, fun hloses => ?_⟩
      have hshort := hloses.short
      omega
  | noEntry hshort hnoEntry =>
      cases hnoEntry with
      | past hpast =>
          refine .of_noTrace (hback rfl) ⟨hinode, fun hloses => ?_⟩
          have hinside := hloses.inside
          rw [hfreeSlot] at hpast
          omega
      | full hinside hhole hspace =>
          have hfew := hspace.short
          rw [hmade.lacks h, hfreeSlot] at hfew
          by_cases hnothing : fs'.freeBlocks = 0
          · refine .of_noTrace (hback (hspace.same hnothing)) ⟨hinode, fun hloses => ?_⟩
            have hfree := hloses.free
            omega
          · obtain ⟨b, hclear, hset⟩ := hspace.leaked hnothing
            rw [hin.marks, Bitmap.isset_mark, Bool.or_eq_false_iff, decide_eq_false_iff_not]
              at hclear
            have hlost : last.sfsFreemap.bitmapIsset b = true := (hmarks b).mpr ⟨hset, hclear.2⟩
            refine .of_loses hclear.1 hlost (fun hloses => hloses.indirect ?_)
            have hmost := lacks_le fs 1 (fs.freeSlot * 64 / 512)
            rw [hfreeSlot] at hinside
            exact ⟨hnone, hin.enough, hshort, hinside, by omega, by omega⟩

theorem creatLink_wp (h : Sound n live refs fs) (hdir : Loaded fs dir 1)
    (hmade : Made n live fs.linkcounts refs fs ino newguy fs') (hin : MadeIn fs ino mem fs')
    (hnone : ∀ other, ¬ fs.Binds name.val other) :
    Prog.wp (creatLink dir name newguy) (fun _ _ => LosesNothing fs name mem)
      (fun _ last => Failed live fs name mem last) (fun _ => False) fs' := by
  have hsound := hmade.sound h
  have hdir' := hmade.stays dir 1 hdir
  have hfits : ino < 2 ^ 32 := by
    have hlive : Function.update live ino true ino = true := Function.update_self _ _ _
    have hlt := (hsound.files.inode_used hlive).1
    have hsized := hsound.files.sized.high
    rw [hsound.files.guarded.nblocks] at hlt
    omega
  unfold creatLink
  simp only [↓Prog.wp_bind, ↓Prog.wp_get, ↓Prog.wp_attempt]
  rw [hmade.loaded.ino]
  refine Prog.wp_mono (sfsDirLink_wp (hsound.rootDir hdir') name hfits) ?_ ?_ (fun _ hbad => hbad)
  · intro slot fs'' hlinked
    have hvolume := hsound.volume.only hdir' hlinked.written.only hlinked.written.files
    have hloaded := hlinked.written.only.staysLoaded newguy ino hmade.loaded
    have hroom := hsound.linkcounts_lt ino
    have hchosen := hlinked.chosen
    have henough := hlinked.room
    have hcount := hin.count
    have hsame : fs'.lacks 1 (slot * 64 / 512) = fs.lacks 1 (fs.freeSlot * 64 / 512) := by
      rw [hchosen, hmade.freeSlot h, hmade.lacks h]
    refine Prog.wp_mono (linkcountUp_wp hvolume hloaded hroom) ?_ (fun _ _ hfails => hfails.elim)
      (fun _ hbad => hbad)
    intro _ _ _
    refine ⟨fun hloses => hloses.memory hin.enough, fun hloses => ?_⟩
    have hlacks := hloses.lacks
    have hfree := hloses.free
    omega
  · rintro code fs'' ⟨hsame, hnot⟩
    unfold puke
    rw [Prog.wp_bind]
    refine Prog.wp_mono (hmade.decref_wp h hdir hsame) ?_ (fun _ _ hfails => hfails.elim)
      (fun _ hbad => hbad)
    rintro _ last ⟨hundone, hmarks⟩
    exact hnot.failed h hmade hin hnone hundone hmarks

theorem sfsCreat_wp (h : Sound n live refs fs) (hdir : Loaded fs dir 1) (hmem : mem.Fresh fs)
    (excl : Bool) :
    Prog.wp (sfsCreat dir name excl mem) (fun _ _ => LosesNothing fs name mem)
      (fun _ last => Failed live fs name mem last) (fun _ => False) fs := by
  have huntouched : ∀ {last}, Untouched n live fs.linkcounts refs fs last →
      last.sfsFreemap = fs.sfsFreemap → NoTrace live fs last := by
    intro last hlast hfreemap
    exact ⟨hlast.undone h, fun b => by rw [hfreemap]⟩
  unfold sfsCreat
  rw [Prog.wp_bind]
  refine Prog.wp_mono (sfsDirFindname_wp (h.rootDir hdir) name) ?_ (fun _ _ hfails => hfails.elim)
    (fun _ hbad => hbad)
  rintro scan _ ⟨hscan, hsame⟩
  rw [hsame]
  split
  case h_1 slot ino hfound =>
      have hbound := hscan.bound hfound
      have hloses := LosesNothing.of_bound ⟨slot, hbound⟩ mem
      simp only [↓Prog.wp_bind, ↓Prog.wp_when, ↓Prog.wp_fail]
      split
      case isTrue hexcl => exact .of_noTrace (huntouched (.refl h.volume) rfl) hloses
      case isFalse hopen =>
          refine Prog.wp_mono (sfsLoadvnode_wp h.volume (h.alive hbound) hmem)
            (fun _ _ _ => hloses) ?_ (fun _ hbad => hbad)
          rintro code last ⟨hlast, hfreemap, _⟩
          exact .of_noTrace (huntouched hlast hfreemap) hloses
  case h_2 hnotFound =>
      have hnone : ∀ ino, ¬ fs.Binds name.val ino := fun _ => hscan.unbound hnotFound
      rw [Prog.wp_bind]
      refine Prog.wp_mono (sfsMakeobj_wp h.volume hdir hmem) ?_ ?_ (fun _ hbad => hbad)
      · rintro newguy fs' ⟨ino, hmade, hin⟩
        exact creatLink_wp h hdir hmade hin hnone
      · rintro code last ⟨hlast, hnot⟩
        generalize hfreemap : last.sfsFreemap = freemap at hnot
        cases hnot with
        | full hempty =>
            refine .of_noTrace (huntouched hlast hfreemap) ⟨fun hloses => ?_, fun hloses => ?_⟩
            · have hsome := hloses.free
              omega
            · have hsome := hloses.free
              omega
        | memory b hsome hshort hclear =>
            refine .of_loses hclear ?_ (fun hloses => hloses.inode ⟨hnone, hsome, hshort⟩)
            rw [hfreemap, Bitmap.isset_mark, decide_eq_true rfl, Bool.or_true]

/-- Every failed call of `sfs_creat` leaves no trace exactly if no block is lost. -/
theorem creat_no_trace_iff (h : Sound n live refs fs) (hdir : Loaded fs dir 1)
    (hmem : mem.Fresh fs) (excl : Bool) :
    (∀ code fs', sfsCreat dir name excl mem fs = .error code fs' → NoTrace live fs fs') ↔
      LosesNothing fs name mem := by
  have hcreat := @sfsCreat_wp fs live refs dir n name mem h hdir hmem excl
  unfold Prog.wp at hcreat
  generalize sfsCreat dir name excl mem fs = result at hcreat
  cases result with
  | ok value fs' =>
      refine ⟨fun _ => hcreat, fun _ code fs' hfails => ?_⟩
      cases hfails
  | error code fs' =>
      constructor
      · intro htrace
        rcases hcreat with ⟨_, hloses⟩ | ⟨hnot, _⟩
        · exact hloses
        · exact absurd (htrace code fs' rfl) hnot
      · intro hloses code' last hfails
        cases hfails
        rcases hcreat with ⟨htrace, _⟩ | ⟨_, hnot⟩
        · exact htrace
        · exact absurd hloses hnot
  | panic reason => exact hcreat.elim

private def usedName : Name := ⟨[97], by decide⟩

private def newName : Name := ⟨[98], by decide⟩

private def outOfMemory : Memory := ⟨none, false, false⟩

theorem creat_used_name_no_trace :
    ∃ fs', sfsCreat 0 usedName true outOfMemory (oneFile []) = .error .EEXIST fs' ∧
      NoTrace oneFileLive (oneFile []) fs' := by
  have hfails : (sfsCreat 0 usedName true outOfMemory (oneFile [])).failed = some .EEXIST := by
    decide +kernel
  have herror := Result.eq_error_of_failed (oneFile []) hfails
  refine ⟨_, herror, (creat_no_trace_iff oneFile_sound oneFile_root ?_ true).mpr ?_ _ _ herror⟩
  · intro sv hsv
    cases hsv
  · have hinside : 0 < (oneFile []).slots := by decide
    have hcalled : ((oneFile []).entry 0).sfdName = [97] := by decide
    exact .of_bound ⟨0, hinside, (oneFile_entry hinside).2, by decide, hcalled⟩ outOfMemory

/-- There is no memory for the vnode: the call fails, and the block that was allocated for
the inode stays marked. -/
theorem creat_loses_inode :
    ∃ fs', sfsCreat 0 newName true outOfMemory (oneFile []) = .error .ENOMEM fs' ∧
      (oneFile []).sfsFreemap.bitmapIsset 5 = false ∧ fs'.sfsFreemap.bitmapIsset 5 = true ∧
      ¬ NoTrace oneFileLive (oneFile []) fs' := by
  have hfails : (sfsCreat 0 newName true outOfMemory (oneFile [])).failed = some .ENOMEM := by
    decide +kernel
  have hbefore : (oneFile []).sfsFreemap.bitmapIsset 5 = false := by decide
  have hafter : ((sfsCreat 0 newName true outOfMemory (oneFile [])).stateD
      (oneFile [])).sfsFreemap.bitmapIsset 5 = true := by decide +kernel
  refine ⟨_, Result.eq_error_of_failed (oneFile []) hfails, hbefore, hafter, ?_⟩
  intro htrace
  have hsame := htrace.marks 5
  rw [hbefore, hafter] at hsame
  cases hsame

end OS161.Sfs
