import OS161.Sfs.Calls

namespace OS161.Sfs

open OS161.Data
open OS161.Kern
open OS161.Lib
open OS161.Vfs

/-! Runs of calls on a volume, from the disk that `mksfs` writes on. -/

variable {fs fs' : SfsFs} {sv ino n : Nat} {name : List Byte}

/-! A new volume. -/

namespace Mksfs

/-- The map is written behind the root's inode. -/
theorem writebitmap_root (count : Nat) :
    Prog.Preserves (fun s : Mksfs => s.disk 1 = rootInode) (writebitmap count) := by
  have hbit : ∀ bit, Prog.Preserves (fun s : Mksfs => s.disk 1 = rootInode) (doallocbit bit) :=
    fun bit => Prog.Preserves.bind .get fun s => (Prog.Preserves.assert _ _).bind fun _ =>
      .modify fun _ hroot => hroot
  have hwrite : ∀ i, Prog.Preserves (fun s : Mksfs => s.disk 1 = rootInode) (writeMapBlock i) := by
    intro i
    refine Prog.Preserves.bind .get fun s => .modify fun s' hroot => ?_
    show Function.update s'.disk (2 + i) _ 1 = rootInode
    rw [Function.update_of_ne (by omega)]
    exact hroot
  unfold writebitmap
  refine (Prog.Preserves.when _ (.fail _)).bind fun _ => ?_
  refine (hbit 0).bind fun _ => (hbit 1).bind fun _ => ?_
  refine (Prog.Preserves.forFrom (fun i _ => hbit (2 + i)) _ _ _).bind fun _ => ?_
  refine (Prog.Preserves.forFrom (fun i _ => hbit i) _ _ _).bind fun _ => ?_
  exact .forFrom (fun i _ => hwrite i) _ _ _

theorem mksfs_root {volname : List Byte} {disk : Nat → Block} {image : Mksfs}
    (hdone : mksfs volname n (start disk) = .ok () image) : image.disk 1 = rootInode := by
  unfold mksfs at hdone
  obtain ⟨_, s₁, _, hrest⟩ := Prog.bind_eq_ok_iff.mp hdone
  obtain ⟨_, s₂, hroot, hmap⟩ := Prog.bind_eq_ok_iff.mp hrest
  have hroot' : s₂.disk 1 = rootInode := by
    cases hroot
    show Function.update s₁.disk 1 rootInode 1 = rootInode
    rw [Function.update_self]
  exact writebitmap_root n s₂ () image hroot' hmap

theorem rootInode_bare : Bare rootInode := by
  constructor
  · intro i hi
    rw [rootInode, header_sfiLinkcount.direct _ hi, header_sfiType.direct _ hi,
      header_sfiSize.direct _ hi,
      Record.get_zeros]
  · rw [rootInode, header_sfiLinkcount.indirect, header_sfiType.indirect, header_sfiSize.indirect,
      Record.get_zeros]

end Mksfs

/-- What a mount makes of a disk that `mksfs` wrote on, whatever was there before. -/
def NewVolume (n : Nat) (fs₀ : SfsFs) : Prop :=
  ∃ volname disk image fs, volname.length < 32 ∧
    Mksfs.mksfs volname n (Mksfs.start disk) = .ok () image ∧ fs.disk = image.disk ∧
    n ≤ fs.dBlocks ∧ fs.mediaErrors = [] ∧ sfsDomount 512 .enough fs = .ok () fs₀

/-- The mount changes nothing on the disk and loads no vnode. -/
theorem sfsDomount_keeps {volname : List Byte} {bitbuf : BitWords 8} (hn : Sized n)
    (himage : Mksfs.Image n volname fs.disk bitbuf) (hdevice : n ≤ fs.dBlocks)
    (hquiet : fs.mediaErrors = []) :
    Prog.Returns (sfsDomount 512 .enough)
      (fun _ fs' => fs'.disk = fs.disk ∧ fs'.sfsVnodes = [] ∧ fs'.mediaErrors = []) fs := by
  have hhigh := hn.high
  have hmap := hn.map_lt
  have hnblocks : (endVolname (fs.disk 0)).get spNblocksField = n := by
    rw [get_endVolname _ _ (by decide), himage.super, Mksfs.nblocks_superBlock _ (by omega)]
  simp only [sfsDomount, ↓Prog.wp_bind, ↓Prog.wp_when, ↓Prog.wp_fail, ↓Prog.wp_get]
  rw [if_neg (by decide), if_neg (by decide), if_neg (by decide)]
  refine @wp_sfsRblock fs 0 _ _ _ _ (by omega) hquiet ?_
  rw [himage.super, Mksfs.magic_superBlock, ← himage.super, if_neg (not_not.mpr rfl),
    if_neg (by decide)]
  simp only [↓Prog.wp_modify, hnblocks]
  refine Prog.Returns.mono (@sfsMapio_read { fs with
    sfsVnodes := []
    sfsSuper := endVolname (fs.disk 0)
    sfsFreemap := Bitmap.bitmapCreate (sfsBitmapsize n) } hquiet ?_) ?_
  · show 2 + sfsBitblocks ((endVolname (fs.disk 0)).get spNblocksField) ≤ fs.dBlocks
    rw [hnblocks]
    omega
  · rintro _ _ rfl
    exact ⟨rfl, rfl, hquiet⟩

/-- The volume has no file, and nothing of it is in memory but its map. -/
theorem FreshMap.orderly (hn : Sized n) (hfresh : FreshMap n fs) (hroot : fs.disk 1 = Mksfs.rootInode)
    (hvnodes : fs.sfsVnodes = []) (hquiet : fs.mediaErrors = []) :
    Orderly n fs ∧ ∀ name, fs.tree.names name = none := by
  have hloaded : ∀ ino, fs.loaded ino = none := by
    intro ino
    rw [SfsFs.loaded, hvnodes]
    rfl
  have hinode : fs.inode 1 = Mksfs.rootInode := by
    rw [SfsFs.inode, hloaded]
    exact hroot
  have hslots : fs.slots = 0 := by
    rw [SfsFs.slots, hinode]
    decide
  have hlinks : ∀ ino, fs.links ino = 0 := by
    intro ino
    rw [SfsFs.links, hslots]
    rfl
  have hholds : ∀ p : Place, fs.held (fun ino => decide (ino = 1)) p ≠ 0 → p = ⟨1, .inode⟩ := by
    rintro ⟨ino, slot⟩ hp
    by_cases hino : ino = 1
    · rw [hino] at hp ⊢
      cases slot with
      | inode => rfl
      | data k =>
          rw [held_of_live (by decide), SfsFs.blockAt, hinode,
            Mksfs.rootInode_bare.dataBlock] at hp
          exact absurd rfl hp
      | indirect =>
          rw [held_of_live (by decide), SfsFs.blockAt, hinode, Mksfs.rootInode_bare.indirect] at hp
          exact absurd rfl hp
    · rw [SfsFs.held, if_neg (by simpa using hino)] at hp
      exact absurd rfl hp
  have hmap := hn.covered.covers
  have hlow := hn.low
  have hset : fs.sfsFreemap.bitmapIsset 1 = true :=
    (hfresh.marked 1 (by omega)).mpr (Or.inr (Or.inl rfl))
  have hfiles : Files n (fun ino => decide (ino = 1)) fs := by
    refine ⟨hn.covered, ⟨hfresh.nblocks, hfresh.device, hfresh.nbits, ?_⟩, hquiet, ?_, ?_, ?_,
      rfl, ?_, ⟨?_, ?_⟩⟩
    · exact fun i hi hreserved => (hfresh.marked i hi).mpr hreserved
    · rw [hvnodes]
      exact List.nodup_nil
    · rw [hvnodes]
      exact fun _ hmem => absurd hmem List.not_mem_nil
    · rw [hvnodes]
      exact fun _ hmem => absurd hmem List.not_mem_nil
    · rw [hvnodes]
      exact fun _ hmem => absurd hmem List.not_mem_nil
    · intro p hp
      obtain rfl := hholds p hp
      exact ⟨hset, fun hne => absurd rfl hne⟩
    · intro p q hsame hp
      rw [hholds p hp, hholds q (by rw [← hsame]; exact hp)]
  have hvolume : Volume n (fun ino => decide (ino = 1)) fs.linkcounts (fun _ => 0) fs := by
    refine ⟨hfiles, rfl, ?_, ?_, ?_, ?_, ?_, ?_⟩
    · intro ino hino
      obtain rfl : ino = 1 := by simpa using hino
      rw [hinode]
      decide
    · intro ino hino
      obtain rfl : ino = 1 := by simpa using hino
      rw [hinode, SfsFs.linkcounts, hlinks]
      decide
    · intro ino _ hdead
      rw [SfsFs.linkcounts, hlinks, if_neg (by simpa using hdead)]
    · rw [hvnodes]
      exact fun _ hmem => absurd hmem List.not_mem_nil
    · rw [hvnodes]
      exact fun _ hmem => absurd hmem List.not_mem_nil
    · rw [hvnodes]
      simp
  have hsound : Sound n (fun ino => decide (ino = 1)) (fun _ => 0) fs := by
    refine ⟨hvolume, ⟨?_, ?_⟩, ?_⟩
    · rw [hinode]
      decide
    · rw [hinode]
      decide
    · intro i hi
      rw [hslots] at hi
      exact absurd hi (Nat.not_lt_zero i)
  have hroots : ∀ ino, decide (ino = 1) = true → ino = 1 := fun ino hino => by simpa using hino
  refine ⟨hsound.orderly (fun ino hino => Or.inl (hroots ino hino))
    (fun ino hne hino => absurd (hroots ino hino) hne), fun name => ?_⟩
  refine (tree_names_none hsound.names).mpr ?_
  rintro ino ⟨slot, hbound⟩
  have hinside := hbound.inside
  rw [hslots] at hinside
  exact Nat.not_lt_zero slot hinside

theorem NewVolume.orderly {fs₀ : SfsFs} (hn : Sized n) (hnew : NewVolume n fs₀) :
    Orderly n fs₀ ∧ ∀ name, fs₀.tree.names name = none := by
  obtain ⟨volname, disk, image, fs, hvolname, hmksfs, hdisk, hdevice, hquiet, hmount⟩ := hnew
  have himage := (Mksfs.mksfs_returns hn hvolname disk).post_of_ok hmksfs
  rw [← hdisk] at himage
  have hfresh := (sfsDomount_returns hn himage hdevice hquiet).post_of_ok hmount
  obtain ⟨hsame, hvnodes, hquiet'⟩ := (sfsDomount_keeps hn himage hdevice hquiet).post_of_ok hmount
  refine hfresh.orderly hn ?_ hvnodes hquiet'
  rw [hsame, hdisk]
  exact Mksfs.mksfs_root hmksfs

/-- The state that a call leaves, unless it stops the machine. -/
def Call.next (call : Call) (fs : SfsFs) : Option SfsFs :=
  match call.exec fs with
  | .ok _ fs' => some fs'
  | .error _ fs' => some fs'
  | .panic _ => none

theorem Meets.next {call : Call} (hmeets : Meets n fs call) (hnext : call.next fs = some fs') :
    ∃ e, Yields n fs e fs' ∧ ((∃ reply, call.Answers fs reply e) ∨ e = .none) := by
  unfold Meets Prog.wp at hmeets
  unfold Call.next at hnext
  cases hexec : call.exec fs with
  | ok reply last =>
      rw [hexec] at hmeets hnext
      obtain rfl := Option.some.inj hnext
      obtain ⟨e, hanswers, hyields⟩ := hmeets
      exact ⟨e, hyields, Or.inl ⟨reply, hanswers⟩⟩
  | error code last =>
      rw [hexec] at hmeets hnext
      obtain rfl := Option.some.inj hnext
      exact ⟨.none, hmeets.2, Or.inr rfl⟩
  | panic reason =>
      rw [hexec] at hnext
      cases hnext

/-- A volume after calls that keep to the rules, since `mksfs` made it. -/
def Reached (n : Nat) (fs : SfsFs) : Prop :=
  ∃ fs₀, NewVolume n fs₀ ∧ Runs Call.next (fun call fs => call.Allowed fs) fs₀ fs

theorem Reached.orderly (hn : Sized n) (h : Reached n fs) : Orderly n fs := by
  obtain ⟨fs₀, hnew, hruns⟩ := h
  refine hruns.preserves ?_ (hnew.orderly hn).1
  intro call s s' horderly hallowed hnext
  obtain ⟨_, hyields, _⟩ := (call_meets horderly hallowed).next hnext
  exact hyields.orderly

theorem Reached.next {call : Call} (h : Reached n fs) (hallowed : call.Allowed fs)
    (hnext : call.next fs = some fs') : Reached n fs' := by
  obtain ⟨fs₀, hnew, hruns⟩ := h
  exact ⟨fs₀, hnew, hruns.trans (.single hallowed hnext)⟩

end OS161.Sfs
