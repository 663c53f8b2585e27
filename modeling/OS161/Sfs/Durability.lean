import Mathlib.Data.List.Nodup
import OS161.Sfs.FreeMap

namespace OS161.Sfs

open OS161.Data
open OS161.Kern
open OS161.Lib
open OS161.Vfs

/-! What `sfs_sync` leaves on the disk. -/

/-- A block to write and where. -/
abbrev Write := Nat × Block

/-- The disk after the writes, of which the device drops those whose turn is an error. -/
def landed : List Write → List Bool → (Nat → Block) → Nat → Block
  | [], _, disk => disk
  | w :: ws, errors, disk =>
      landed ws errors.tail
        (if errors.headD false = true then disk else Function.update disk w.1 w.2)

theorem landed_append (ws ws' : List Write) (errors : List Bool) (disk : Nat → Block) :
    landed (ws ++ ws') errors disk =
      landed ws' (errors.drop ws.length) (landed ws errors disk) := by
  induction ws generalizing errors disk with
  | nil => rfl
  | cons w ws ih =>
      rw [List.cons_append, landed, landed, ih, List.length_cons, List.drop_tail]

theorem landed_of_ne (hne : ∀ w ∈ ws, w.1 ≠ b) (errors : List Bool) (disk : Nat → Block) :
    landed ws errors disk b = disk b := by
  induction ws generalizing errors disk with
  | nil => rfl
  | cons w ws ih =>
      rw [landed, ih (fun w' hw' => hne w' (List.mem_cons_of_mem _ hw'))]
      split
      · rfl
      · exact Function.update_of_ne (hne w (List.mem_cons_self ..)).symm ..

/-- The disk takes the writes, or holds the blocks already. -/
def Lands (ws : List Write) (errors : List Bool) (disk : Nat → Block) : Prop :=
  ∀ (i : Nat) (w : Write), ws[i]? = some w → errors[i]? = some true → disk w.1 = w.2

theorem lands_cons (w : Write) (ws : List Write) (errors : List Bool) (disk : Nat → Block) :
    Lands (w :: ws) errors disk ↔
      (errors.headD false = true → disk w.1 = w.2) ∧ Lands ws errors.tail disk := by
  have hhead : errors.headD false = true ↔ errors[0]? = some true := by
    cases errors with
    | nil => simp
    | cons error errors => simp
  rw [hhead]
  constructor
  · intro hlands
    refine ⟨hlands 0 w rfl, ?_⟩
    intro i w' hw' herror
    rw [List.getElem?_tail] at herror
    exact hlands (i + 1) w' hw' herror
  · rintro ⟨hfirst, hrest⟩ i w' hw' herror
    cases i with
    | zero =>
        rw [List.getElem?_cons_zero, Option.some.injEq] at hw'
        rw [← hw']
        exact hfirst herror
    | succ i =>
        apply hrest i w' hw'
        rw [List.getElem?_tail]
        exact herror

theorem lands_congr {ws : List Write} {disk disk' : Nat → Block}
    (hsame : ∀ w ∈ ws, disk' w.1 = disk w.1) (errors : List Bool) :
    Lands ws errors disk' ↔ Lands ws errors disk := by
  apply forall_congr'
  intro i
  apply forall_congr'
  intro w
  apply forall_congr'
  intro hw
  rw [hsame w (List.mem_of_getElem? hw)]

/-- Writes to different blocks are on the disk in the end where the disk takes them or
holds them already. -/
theorem lands_iff {ws : List Write} (hdistinct : (ws.map Prod.fst).Nodup) (errors : List Bool)
    (disk : Nat → Block) :
    (∀ w ∈ ws, landed ws errors disk w.1 = w.2) ↔ Lands ws errors disk := by
  induction ws generalizing errors disk with
  | nil => simp [Lands]
  | cons w ws ih =>
      rw [List.map_cons, List.nodup_cons] at hdistinct
      have hother (w' : Write) (hw' : w' ∈ ws) : w'.1 ≠ w.1 := by
        intro heq
        apply hdistinct.1
        rw [← heq]
        exact List.mem_map_of_mem hw'
      rw [List.forall_mem_cons, lands_cons, landed, landed_of_ne hother]
      apply and_congr
      · split
        case isTrue herror => exact ⟨fun h _ => h, fun h => h herror⟩
        case isFalse herror =>
            exact ⟨fun _ h => absurd h herror, fun _ => Function.update_self ..⟩
      · rw [ih hdistinct.2]
        apply lands_congr
        intro w' hw'
        split
        · rfl
        · exact Function.update_of_ne (hother w' hw') ..

variable {fs fs' : SfsFs}

/-- The writes reached the device, in this order. -/
structure Wrote (fs : SfsFs) (ws : List Write) (fs' : SfsFs) : Prop where
  disk : fs'.disk = landed ws fs.mediaErrors fs.disk
  mediaErrors : fs'.mediaErrors = fs.mediaErrors.drop ws.length
  dBlocks : fs'.dBlocks = fs.dBlocks

theorem Wrote.none (fs : SfsFs) : Wrote fs [] fs := ⟨rfl, rfl, rfl⟩

theorem Wrote.trans {fs'' : SfsFs} {ws ws' : List Write} (hfirst : Wrote fs ws fs')
    (hsecond : Wrote fs' ws' fs'') : Wrote fs (ws ++ ws') fs'' := by
  refine ⟨?_, ?_, hsecond.dBlocks.trans hfirst.dBlocks⟩
  · rw [hsecond.disk, hfirst.disk, hfirst.mediaErrors, landed_append]
  · rw [hsecond.mediaErrors, hfirst.mediaErrors, List.drop_drop, List.length_append]

theorem written_wrote (fs : SfsFs) (block : Nat) (data : Block) :
    Wrote fs [(block, data)] (fs.written block data) := by
  unfold SfsFs.written SfsFs.nextError
  split
  case isTrue herror =>
      refine ⟨?_, by simp [SfsFs.afterIo], rfl⟩
      rw [landed, if_pos herror]
      rfl
  case isFalse herror =>
      refine ⟨?_, by simp [SfsFs.afterIo, SfsFs.withBlock], rfl⟩
      rw [landed, if_neg herror]
      rfl

/-! The inodes. -/

/-- The writes for the vnodes that are dirty. -/
def dirtyInodes (fs : SfsFs) (svs : List Nat) : List Write :=
  (svs.filter fun sv => (fs.vnode sv).svDirty).map fun sv =>
    ((fs.vnode sv).svIno, (fs.vnode sv).svI)

/-- The vnodes as they were, but for the dirty flags of those listed. -/
structure Cleaned (fs : SfsFs) (svs : List Nat) (fs' : SfsFs) : Prop where
  clean : ∀ sv ∈ svs, (fs'.vnode sv).svDirty = false
  others : ∀ sv, sv ∉ svs → fs'.vnode sv = fs.vnode sv
  svI : ∀ sv, (fs'.vnode sv).svI = (fs.vnode sv).svI
  svIno : ∀ sv, (fs'.vnode sv).svIno = (fs.vnode sv).svIno
  sfsVnodes : fs'.sfsVnodes = fs.sfsVnodes
  sfsFreemap : fs'.sfsFreemap = fs.sfsFreemap
  sfsFreemapdirty : fs'.sfsFreemapdirty = fs.sfsFreemapdirty
  sfsSuper : fs'.sfsSuper = fs.sfsSuper
  sfsSuperdirty : fs'.sfsSuperdirty = fs.sfsSuperdirty

theorem sfsFsync_returns (hblock : (fs.vnode sv).svIno < fs.dBlocks) :
    Prog.Returns (sfsFsync sv)
      (fun _ fs' => Wrote fs (dirtyInodes fs [sv]) fs' ∧ Cleaned fs [sv] fs') fs := by
  simp only [sfsFsync, sfsSyncInode, updateVnode, ↓Prog.wp_bind, ↓Prog.wp_get, ↓Prog.wp_when,
    ↓Prog.wp_modify]
  split
  case isTrue hdirty =>
      apply wp_sfsWblock _ hblock
      have hwrote := written_wrote fs (fs.vnode sv).svIno (fs.vnode sv).svI
      have hwrites : dirtyInodes fs [sv] = [((fs.vnode sv).svIno, (fs.vnode sv).svI)] := by
        simp [dirtyInodes, hdirty]
      rw [hwrites]
      obtain ⟨disk, errors, hwritten⟩ := written_eq fs (fs.vnode sv).svIno (fs.vnode sv).svI
      rw [hwritten] at hwrote ⊢
      refine ⟨⟨hwrote.disk, hwrote.mediaErrors, rfl⟩, ?_, ?_, ?_, ?_, rfl, rfl, rfl, rfl, rfl⟩
      · intro sv' hsv'
        rw [List.mem_singleton.mp hsv']
        simp
      · intro sv' hsv'
        exact Function.update_of_ne (List.mem_singleton.not.mp hsv') ..
      · intro sv'
        by_cases heq : sv' = sv
        · simp [heq]
        · simp [heq]
      · intro sv'
        by_cases heq : sv' = sv
        · simp [heq]
        · simp [heq]
  case isFalse hclean =>
      rw [Bool.not_eq_true] at hclean
      have hwrites : dirtyInodes fs [sv] = [] := by
        simp [dirtyInodes, hclean]
      rw [hwrites]
      refine ⟨Wrote.none fs, ?_, fun _ _ => rfl, fun _ => rfl, fun _ => rfl, rfl, rfl, rfl, rfl,
        rfl⟩
      intro sv' hsv'
      rw [List.mem_singleton.mp hsv']
      exact hclean

theorem dirtyInodes_cons (fs : SfsFs) (sv : Nat) (svs : List Nat) :
    dirtyInodes fs (sv :: svs) = dirtyInodes fs [sv] ++ dirtyInodes fs svs := by
  unfold dirtyInodes
  cases hdirty : (fs.vnode sv).svDirty with
  | true => simp [hdirty]
  | false => simp [hdirty]

theorem dirtyInodes_congr {svs : List Nat} (hsame : ∀ sv ∈ svs, fs'.vnode sv = fs.vnode sv) :
    dirtyInodes fs' svs = dirtyInodes fs svs := by
  induction svs with
  | nil => rfl
  | cons sv svs ih =>
      have hsv := hsame sv (List.mem_cons_self ..)
      rw [dirtyInodes_cons, dirtyInodes_cons fs,
        ih (fun sv' hsv' => hsame sv' (List.mem_cons_of_mem _ hsv'))]
      cases hdirty : (fs.vnode sv).svDirty with
      | true => simp [dirtyInodes, hsv, hdirty]
      | false => simp [dirtyInodes, hsv, hdirty]

theorem syncVnodes_returns {svs : List Nat} (hdistinct : svs.Nodup)
    (hblocks : ∀ sv ∈ svs, (fs.vnode sv).svIno < fs.dBlocks) :
    Prog.Returns (syncVnodes svs)
      (fun _ fs' => Wrote fs (dirtyInodes fs svs) fs' ∧ Cleaned fs svs fs') fs := by
  induction svs generalizing fs with
  | nil =>
      exact ⟨Wrote.none fs, by simp, fun _ _ => rfl, fun _ => rfl, fun _ => rfl, rfl, rfl, rfl,
        rfl, rfl⟩
  | cons sv svs ih =>
      rw [List.nodup_cons] at hdistinct
      simp only [syncVnodes, ↓Prog.wp_bind, ↓Prog.wp_attempt]
      refine Prog.wp_mono (sfsFsync_returns (hblocks sv (List.mem_cons_self ..))) ?_
        (fun _ _ h => h.elim) (fun _ h => h)
      rintro _ fs₁ ⟨hwrote₁, hcleaned₁⟩
      have hsame : ∀ sv' ∈ svs, fs₁.vnode sv' = fs.vnode sv' := by
        intro sv' hsv'
        apply hcleaned₁.others
        intro heq
        rw [List.mem_singleton.mp heq] at hsv'
        exact hdistinct.1 hsv'
      refine Prog.Returns.mono (ih hdistinct.2 ?_) ?_
      · intro sv' hsv'
        rw [hsame sv' hsv', hwrote₁.dBlocks]
        exact hblocks sv' (List.mem_cons_of_mem _ hsv')
      · rintro _ fs₂ ⟨hwrote₂, hcleaned₂⟩
        rw [dirtyInodes_congr hsame] at hwrote₂
        rw [dirtyInodes_cons]
        refine ⟨hwrote₁.trans hwrote₂, ?_, ?_, ?_, ?_, ?_, ?_, ?_, ?_, ?_⟩
        · intro sv' hsv'
          by_cases hlater : sv' ∈ svs
          · exact hcleaned₂.clean sv' hlater
          · rw [hcleaned₂.others sv' hlater]
            cases hsv' with
            | head => exact hcleaned₁.clean sv (List.mem_singleton_self sv)
            | tail _ h => exact absurd h hlater
        · intro sv' hsv'
          rw [List.mem_cons, not_or] at hsv'
          rw [hcleaned₂.others sv' hsv'.2,
            hcleaned₁.others sv' (List.mem_singleton.not.mpr hsv'.1)]
        · intro sv'
          rw [hcleaned₂.svI, hcleaned₁.svI]
        · intro sv'
          rw [hcleaned₂.svIno, hcleaned₁.svIno]
        · rw [hcleaned₂.sfsVnodes, hcleaned₁.sfsVnodes]
        · rw [hcleaned₂.sfsFreemap, hcleaned₁.sfsFreemap]
        · rw [hcleaned₂.sfsFreemapdirty, hcleaned₁.sfsFreemapdirty]
        · rw [hcleaned₂.sfsSuper, hcleaned₁.sfsSuper]
        · rw [hcleaned₂.sfsSuperdirty, hcleaned₁.sfsSuperdirty]

/-! The free map and the superblock. -/

/-- The writes for the first blocks of the map. -/
def mapWrites (v : BitWords 8) (count : Nat) : List Write :=
  (List.range count).map fun j => (2 + j, mapBlock v j)

/-- Nothing but the device changed. -/
def SameMemory (fs fs' : SfsFs) : Prop :=
  ∃ disk errors, fs' = { fs with disk := disk, mediaErrors := errors }

theorem sfsMapio_write (hdisk : 2 + sfsBitblocks fs.spNblocks ≤ fs.dBlocks) :
    Prog.Returns (sfsMapio .UIO_WRITE)
      (fun _ fs' => Wrote fs (mapWrites fs.sfsFreemap.v (sfsBitblocks fs.spNblocks)) fs' ∧
        SameMemory fs fs') fs := by
  simp only [sfsMapio, ↓Prog.wp_bind, ↓Prog.wp_get]
  refine Prog.wp_mono (Prog.wp_forFrom
    (fun j _ fs' => Wrote fs (mapWrites fs.sfsFreemap.v j) fs' ∧ SameMemory fs fs') ?_
    ⟨Wrote.none fs, _, _, rfl⟩) ?_ (fun _ _ h => h) (fun _ h => h)
  · rintro j _ _ - hlt ⟨hwrote, disk, errors, rfl⟩
    simp only [mapioBlock, ↓Prog.wp_bind, ↓Prog.wp_get]
    refine @wp_sfsWblock { fs with disk := disk, mediaErrors := errors } (2 + j) _ _ _ _
      (show 2 + j < fs.dBlocks by omega) ?_
    have hnext := hwrote.trans (written_wrote { fs with disk := disk, mediaErrors := errors }
      (2 + j) (mapBlock fs.sfsFreemap.v j))
    have hwrites : mapWrites fs.sfsFreemap.v j ++ [(2 + j, mapBlock fs.sfsFreemap.v j)] =
        mapWrites fs.sfsFreemap.v (j + 1) := by
      rw [mapWrites, mapWrites, List.range_succ, List.map_append]
      rfl
    rw [hwrites] at hnext
    obtain ⟨disk', errors', hwritten⟩ := written_eq
      { fs with disk := disk, mediaErrors := errors } (2 + j) (mapBlock fs.sfsFreemap.v j)
    exact ⟨hnext, disk', errors', hwritten⟩
  · intro _ fs' hfs'
    rw [Nat.zero_add] at hfs'
    exact hfs'

/-- Everything in memory is on the disk. -/
structure Durable (fs : SfsFs) : Prop where
  inodes : ∀ sv ∈ fs.sfsVnodes, (fs.vnode sv).svDirty = false ∧
    fs.disk (fs.vnode sv).svIno = (fs.vnode sv).svI
  freemap : ∀ j < sfsBitblocks fs.spNblocks, fs.disk (2 + j) = mapBlock fs.sfsFreemap.v j
  super : fs.disk 0 = fs.sfsSuper

/-- What is not marked dirty is on the disk. -/
structure Clean (fs : SfsFs) : Prop where
  inodes : ∀ sv ∈ fs.sfsVnodes, (fs.vnode sv).svDirty = false →
    fs.disk (fs.vnode sv).svIno = (fs.vnode sv).svI
  freemap : fs.sfsFreemapdirty = false →
    ∀ j < sfsBitblocks fs.spNblocks, fs.disk (2 + j) = mapBlock fs.sfsFreemap.v j
  super : fs.sfsSuperdirty = false → fs.disk 0 = fs.sfsSuper

/-- The inodes in memory are different blocks of the disk, and none of them is the
superblock or in the map. -/
structure Placed (fs : SfsFs) : Prop where
  distinct : (fs.sfsVnodes.map fun sv => (fs.vnode sv).svIno).Nodup
  inode : ∀ sv ∈ fs.sfsVnodes,
    (fs.vnode sv).svIno = 1 ∨ 2 + sfsBitblocks fs.spNblocks ≤ (fs.vnode sv).svIno
  range : ∀ sv ∈ fs.sfsVnodes, (fs.vnode sv).svIno < fs.dBlocks
  map : 2 + sfsBitblocks fs.spNblocks ≤ fs.dBlocks

def freemapWrites (fs : SfsFs) : List Write :=
  if fs.sfsFreemapdirty = true then mapWrites fs.sfsFreemap.v (sfsBitblocks fs.spNblocks) else []

def superWrites (fs : SfsFs) : List Write :=
  if fs.sfsSuperdirty = true then [(0, fs.sfsSuper)] else []

/-- The writes that `sfs_sync` makes. -/
def pendingWrites (fs : SfsFs) : List Write :=
  dirtyInodes fs fs.sfsVnodes ++ (freemapWrites fs ++ superWrites fs)

theorem syncFreemap_returns (hdisk : 2 + sfsBitblocks fs.spNblocks ≤ fs.dBlocks) :
    Prog.Returns syncFreemap
      (fun _ fs' => Wrote fs (freemapWrites fs) fs' ∧
        ∃ disk errors, fs' = { fs with
          disk := disk, mediaErrors := errors, sfsFreemapdirty := false }) fs := by
  unfold freemapWrites
  simp only [syncFreemap, ↓Prog.wp_bind, ↓Prog.wp_get, ↓Prog.wp_when, ↓Prog.wp_modify]
  split
  case isTrue =>
      refine Prog.Returns.mono (sfsMapio_write hdisk) ?_
      rintro _ _ ⟨hwrote, disk, errors, rfl⟩
      exact ⟨⟨hwrote.disk, hwrote.mediaErrors, rfl⟩, disk, errors, rfl⟩
  case isFalse hclean =>
      rw [Bool.not_eq_true] at hclean
      refine ⟨Wrote.none fs, fs.disk, fs.mediaErrors, ?_⟩
      rw [← hclean]

theorem syncSuper_returns (hdisk : 0 < fs.dBlocks) :
    Prog.Returns syncSuper
      (fun _ fs' => Wrote fs (superWrites fs) fs' ∧
        ∃ disk errors, fs' = { fs with
          disk := disk, mediaErrors := errors, sfsSuperdirty := false }) fs := by
  unfold superWrites
  simp only [syncSuper, ↓Prog.wp_bind, ↓Prog.wp_get, ↓Prog.wp_when, ↓Prog.wp_modify]
  split
  case isTrue =>
      apply wp_sfsWblock _ hdisk
      have hwrote := written_wrote fs 0 fs.sfsSuper
      obtain ⟨disk, errors, hwritten⟩ := written_eq fs 0 fs.sfsSuper
      rw [hwritten] at hwrote ⊢
      exact ⟨⟨hwrote.disk, hwrote.mediaErrors, rfl⟩, disk, errors, rfl⟩
  case isFalse hclean =>
      rw [Bool.not_eq_true] at hclean
      refine ⟨Wrote.none fs, fs.disk, fs.mediaErrors, ?_⟩
      rw [← hclean]

/-- What `sfs_sync` did. -/
structure Synced (fs fs' : SfsFs) : Prop where
  wrote : Wrote fs (pendingWrites fs) fs'
  clean : ∀ sv ∈ fs.sfsVnodes, (fs'.vnode sv).svDirty = false
  svI : ∀ sv, (fs'.vnode sv).svI = (fs.vnode sv).svI
  svIno : ∀ sv, (fs'.vnode sv).svIno = (fs.vnode sv).svIno
  sfsVnodes : fs'.sfsVnodes = fs.sfsVnodes
  sfsFreemap : fs'.sfsFreemap = fs.sfsFreemap
  sfsSuper : fs'.sfsSuper = fs.sfsSuper
  sfsFreemapdirty : fs'.sfsFreemapdirty = false
  sfsSuperdirty : fs'.sfsSuperdirty = false

/-- `sfs_sync` makes the writes and returns 0. -/
theorem sfsSync_returns (hplaced : Placed fs) :
    Prog.Returns sfsSync (fun _ fs' => Synced fs fs') fs := by
  have hmap := hplaced.map
  simp only [sfsSync, ↓Prog.wp_bind, ↓Prog.wp_get]
  refine Prog.Returns.mono (syncVnodes_returns (List.Nodup.of_map _ hplaced.distinct) hplaced.range) ?_
  rintro _ fs₁ ⟨hwrote₁, hcleaned⟩
  have hnblocks : fs₁.spNblocks = fs.spNblocks := by
    rw [SfsFs.spNblocks, hcleaned.sfsSuper, SfsFs.spNblocks]
  refine Prog.Returns.mono (syncFreemap_returns ?_) ?_
  · rw [hnblocks, hwrote₁.dBlocks]
    exact hmap
  rintro _ _ ⟨hwrote₂, disk, errors, rfl⟩
  have hfreemap : freemapWrites fs₁ = freemapWrites fs := by
    rw [freemapWrites, freemapWrites, hcleaned.sfsFreemapdirty, hcleaned.sfsFreemap, hnblocks]
  rw [hfreemap] at hwrote₂
  refine Prog.Returns.mono (syncSuper_returns ?_) ?_
  · show 0 < fs₁.dBlocks
    rw [hwrote₁.dBlocks]
    omega
  rintro _ _ ⟨hwrote₃, disk', errors', rfl⟩
  have hsuper : superWrites { fs₁ with
      disk := disk, mediaErrors := errors, sfsFreemapdirty := false } = superWrites fs := by
    rw [superWrites, superWrites, hcleaned.sfsSuperdirty, hcleaned.sfsSuper]
  rw [hsuper] at hwrote₃
  exact ⟨hwrote₁.trans (hwrote₂.trans hwrote₃), hcleaned.clean, hcleaned.svI, hcleaned.svIno,
    hcleaned.sfsVnodes, hcleaned.sfsFreemap, hcleaned.sfsSuper, rfl, rfl⟩

theorem mem_dirtyInodes : w ∈ dirtyInodes fs svs ↔
    ∃ sv ∈ svs, (fs.vnode sv).svDirty = true ∧ ((fs.vnode sv).svIno, (fs.vnode sv).svI) = w := by
  simp [dirtyInodes, and_assoc]

theorem mem_freemapWrites : w ∈ freemapWrites fs ↔ fs.sfsFreemapdirty = true ∧
    ∃ j < sfsBitblocks fs.spNblocks, (2 + j, mapBlock fs.sfsFreemap.v j) = w := by
  unfold freemapWrites
  split
  case isTrue hdirty => simp [mapWrites, hdirty]
  case isFalse hclean => simp [hclean]

theorem mem_superWrites : w ∈ superWrites fs ↔
    fs.sfsSuperdirty = true ∧ (0, fs.sfsSuper) = w := by
  unfold superWrites
  split
  case isTrue hdirty => simp [hdirty, eq_comm]
  case isFalse hclean => simp [hclean]

theorem Placed.pending_nodup (hplaced : Placed fs) :
    ((pendingWrites fs).map Prod.fst).Nodup := by
  have hinodes : ((dirtyInodes fs fs.sfsVnodes).map Prod.fst).Nodup := by
    have hsublist : ((dirtyInodes fs fs.sfsVnodes).map Prod.fst).Sublist
        (fs.sfsVnodes.map fun sv => (fs.vnode sv).svIno) := by
      rw [dirtyInodes, List.map_map]
      exact List.Sublist.map _ List.filter_sublist
    exact hplaced.distinct.sublist hsublist
  have hmap : ((freemapWrites fs).map Prod.fst).Nodup := by
    unfold freemapWrites
    split
    case isTrue =>
        rw [mapWrites, List.map_map]
        apply List.Nodup.map _ List.nodup_range
        intro i j heq
        have : 2 + i = 2 + j := heq
        omega
    case isFalse => exact List.nodup_nil
  have hsuper : ((superWrites fs).map Prod.fst).Nodup := by
    unfold superWrites
    split
    · exact List.nodup_singleton 0
    · exact List.nodup_nil
  rw [pendingWrites, List.map_append, List.map_append]
  refine hinodes.append (hmap.append hsuper ?_) ?_
  · intro block hfirst hsecond
    obtain ⟨w, hw, rfl⟩ := List.mem_map.mp hfirst
    obtain ⟨w', hw', heq⟩ := List.mem_map.mp hsecond
    obtain ⟨-, j, -, rfl⟩ := mem_freemapWrites.mp hw
    obtain ⟨-, rfl⟩ := mem_superWrites.mp hw'
    have : 0 = 2 + j := heq
    omega
  · intro block hfirst hsecond
    obtain ⟨w, hw, rfl⟩ := List.mem_map.mp hfirst
    obtain ⟨sv, hsv, -, rfl⟩ := mem_dirtyInodes.mp hw
    have hinode := hplaced.inode sv hsv
    rw [← List.map_append] at hsecond
    obtain ⟨w', hw', heq⟩ := List.mem_map.mp hsecond
    cases List.mem_append.mp hw' with
    | inl hfreemap =>
        obtain ⟨-, j, hj, rfl⟩ := mem_freemapWrites.mp hfreemap
        have : 2 + j = (fs.vnode sv).svIno := heq
        omega
    | inr hsuper =>
        obtain ⟨-, rfl⟩ := mem_superWrites.mp hsuper
        have : 0 = (fs.vnode sv).svIno := heq
        omega

/-- A block that is not dirty is not written. -/
theorem Placed.clean_inode (hplaced : Placed fs) (hsv : sv ∈ fs.sfsVnodes)
    (hclean : (fs.vnode sv).svDirty = false) :
    ∀ w ∈ pendingWrites fs, w.1 ≠ (fs.vnode sv).svIno := by
  have hinode := hplaced.inode sv hsv
  intro w hw heq
  rw [pendingWrites, List.mem_append, List.mem_append] at hw
  cases hw with
  | inl hinodes =>
      obtain ⟨sv', hsv', hdirty, rfl⟩ := mem_dirtyInodes.mp hinodes
      obtain rfl := List.inj_on_of_nodup_map hplaced.distinct hsv' hsv heq
      rw [hclean] at hdirty
      cases hdirty
  | inr hrest =>
      cases hrest with
      | inl hfreemap =>
          obtain ⟨-, j, hj, rfl⟩ := mem_freemapWrites.mp hfreemap
          have : 2 + j = (fs.vnode sv).svIno := heq
          omega
      | inr hsuper =>
          obtain ⟨-, rfl⟩ := mem_superWrites.mp hsuper
          have : 0 = (fs.vnode sv).svIno := heq
          omega

theorem Placed.clean_freemap (hplaced : Placed fs) (hclean : fs.sfsFreemapdirty = false)
    (hj : j < sfsBitblocks fs.spNblocks) : ∀ w ∈ pendingWrites fs, w.1 ≠ 2 + j := by
  intro w hw heq
  rw [pendingWrites, List.mem_append, List.mem_append] at hw
  cases hw with
  | inl hinodes =>
      obtain ⟨sv, hsv, -, rfl⟩ := mem_dirtyInodes.mp hinodes
      have hinode := hplaced.inode sv hsv
      have : (fs.vnode sv).svIno = 2 + j := heq
      omega
  | inr hrest =>
      cases hrest with
      | inl hfreemap =>
          have hdirty := (mem_freemapWrites.mp hfreemap).1
          rw [hclean] at hdirty
          cases hdirty
      | inr hsuper =>
          obtain ⟨-, rfl⟩ := mem_superWrites.mp hsuper
          have : 0 = 2 + j := heq
          omega

theorem Placed.clean_super (hplaced : Placed fs) (hclean : fs.sfsSuperdirty = false) :
    ∀ w ∈ pendingWrites fs, w.1 ≠ 0 := by
  intro w hw heq
  rw [pendingWrites, List.mem_append, List.mem_append] at hw
  cases hw with
  | inl hinodes =>
      obtain ⟨sv, hsv, -, rfl⟩ := mem_dirtyInodes.mp hinodes
      have hinode := hplaced.inode sv hsv
      have : (fs.vnode sv).svIno = 0 := heq
      omega
  | inr hrest =>
      cases hrest with
      | inl hfreemap =>
          obtain ⟨-, j, -, rfl⟩ := mem_freemapWrites.mp hfreemap
          have : 2 + j = 0 := heq
          omega
      | inr hsuper =>
          have hdirty := (mem_superWrites.mp hsuper).1
          rw [hclean] at hdirty
          cases hdirty

/-- The memory of a file system against a disk. -/
structure OnDisk (fs : SfsFs) (disk : Nat → Block) : Prop where
  inodes : ∀ sv ∈ fs.sfsVnodes, disk (fs.vnode sv).svIno = (fs.vnode sv).svI
  freemap : ∀ j < sfsBitblocks fs.spNblocks, disk (2 + j) = mapBlock fs.sfsFreemap.v j
  super : disk 0 = fs.sfsSuper

theorem Placed.onDisk_iff (hplaced : Placed fs) (errors : List Bool) :
    OnDisk fs (landed (pendingWrites fs) errors fs.disk) ↔
      Clean fs ∧ Lands (pendingWrites fs) errors fs.disk := by
  have hlands := lands_iff hplaced.pending_nodup errors fs.disk
  constructor
  · intro hdisk
    refine ⟨⟨?_, ?_, ?_⟩, hlands.mp ?_⟩
    · intro sv hsv hclean
      rw [← hdisk.inodes sv hsv, landed_of_ne (hplaced.clean_inode hsv hclean)]
    · intro hclean j hj
      rw [← hdisk.freemap j hj, landed_of_ne (hplaced.clean_freemap hclean hj)]
    · intro hclean
      rw [← hdisk.super, landed_of_ne (hplaced.clean_super hclean)]
    · intro w hw
      rw [pendingWrites, List.mem_append, List.mem_append] at hw
      cases hw with
      | inl hinodes =>
          obtain ⟨sv, hsv, -, rfl⟩ := mem_dirtyInodes.mp hinodes
          exact hdisk.inodes sv hsv
      | inr hrest =>
          cases hrest with
          | inl hfreemap =>
              obtain ⟨-, j, hj, rfl⟩ := mem_freemapWrites.mp hfreemap
              exact hdisk.freemap j hj
          | inr hsuper =>
              obtain ⟨-, rfl⟩ := mem_superWrites.mp hsuper
              exact hdisk.super
  · rintro ⟨hclean, hland⟩
    have hwritten := hlands.mpr hland
    refine ⟨?_, ?_, ?_⟩
    · intro sv hsv
      cases hflag : (fs.vnode sv).svDirty with
      | false =>
          rw [landed_of_ne (hplaced.clean_inode hsv hflag)]
          exact hclean.inodes sv hsv hflag
      | true =>
          exact hwritten _ (List.mem_append_left _ (mem_dirtyInodes.mpr ⟨sv, hsv, hflag, rfl⟩))
    · intro j hj
      cases hflag : fs.sfsFreemapdirty with
      | false =>
          rw [landed_of_ne (hplaced.clean_freemap hflag hj)]
          exact hclean.freemap hflag j hj
      | true =>
          exact hwritten _ (List.mem_append_right _ (List.mem_append_left _
            (mem_freemapWrites.mpr ⟨hflag, j, hj, rfl⟩)))
    · cases hflag : fs.sfsSuperdirty with
      | false =>
          rw [landed_of_ne (hplaced.clean_super hflag)]
          exact hclean.super hflag
      | true =>
          exact hwritten _ (List.mem_append_right _ (List.mem_append_right _
            (mem_superWrites.mpr ⟨hflag, rfl⟩)))

/-! Mounting again. -/

/-- The superblock and the bitmap are as a mount leaves them. -/
structure Mounted (fs : SfsFs) : Prop where
  magic : fs.sfsSuper.get spMagic = SFS_MAGIC
  volname : endVolname fs.sfsSuper = fs.sfsSuper
  nbits : fs.sfsFreemap.nbits = sfsBitmapsize fs.spNblocks

/-- What is found on the disk after it was unmounted and mounted again. -/
structure SameFiles (fs fs' : SfsFs) : Prop where
  disk : fs'.disk = fs.disk
  super : fs'.sfsSuper = fs.sfsSuper
  nbits : fs'.sfsFreemap.nbits = fs.sfsFreemap.nbits
  freemap : ∀ i < fs.sfsFreemap.nbits,
    fs'.sfsFreemap.bitmapIsset i = fs.sfsFreemap.bitmapIsset i

theorem remount_returns (hmounted : Mounted fs) (hplaced : Placed fs) (hdurable : Durable fs)
    (hquiet : fs.mediaErrors = []) :
    Prog.Returns (sfsDomount 512 .enough) (fun _ fs' => SameFiles fs fs') fs := by
  have hmap := hplaced.map
  simp only [sfsDomount, ↓Prog.wp_bind, ↓Prog.wp_when, ↓Prog.wp_fail, ↓Prog.wp_get]
  rw [if_neg (by decide), if_neg (by decide), if_neg (by decide)]
  refine @wp_sfsRblock fs 0 _ _ _ _ (by omega) hquiet ?_
  rw [hdurable.super, hmounted.magic, if_neg (not_not.mpr rfl), if_neg (by decide),
    hmounted.volname]
  simp only [↓Prog.wp_modify]
  refine Prog.Returns.mono (@sfsMapio_read { fs with
    sfsVnodes := []
    sfsSuper := fs.sfsSuper
    sfsFreemap := Bitmap.bitmapCreate (sfsBitmapsize (fs.sfsSuper.get spNblocksField)) }
    hquiet hmap) ?_
  rintro _ _ rfl
  refine ⟨rfl, rfl, hmounted.nbits.symm, ?_⟩
  intro i hi
  rw [hmounted.nbits, bitmapsize_eq] at hi
  show Bitmap.bitmapIsset ⟨_, loadedMap fs.disk _ (sfsBitblocks fs.spNblocks)⟩ i = _
  rw [Bitmap.bitmapIsset_eq, Bitmap.bitmapIsset_eq, bit_loadedMap hdurable.freemap _ hi]

/-- The file system can be unmounted, and a mount of its disk finds the same files. -/
def Remounts (fs : SfsFs) : Prop :=
  sfsUnmount fs = .ok () fs ∧
    ∃ fs', sfsDomount 512 .enough { fs with mediaErrors := [] } = .ok () fs' ∧ SameFiles fs fs'

theorem sfsUnmount_returns (hvnodes : fs.sfsVnodes = []) (hsuper : fs.sfsSuperdirty = false)
    (hfreemap : fs.sfsFreemapdirty = false) :
    Prog.Returns sfsUnmount (fun _ fs' => fs' = fs) fs := by
  simp only [sfsUnmount, ↓Prog.wp_bind, ↓Prog.wp_get, ↓Prog.wp_when, ↓Prog.wp_assert, hvnodes,
    hsuper, hfreemap, List.length_nil]
  simp

theorem remounts (hmounted : Mounted fs) (hplaced : Placed fs) (hdurable : Durable fs)
    (hvnodes : fs.sfsVnodes = []) (hsuper : fs.sfsSuperdirty = false)
    (hfreemap : fs.sfsFreemapdirty = false) : Remounts fs := by
  obtain ⟨_, fs', hunmount, rfl⟩ := (sfsUnmount_returns hvnodes hsuper hfreemap).exists_ok
  refine ⟨hunmount, ?_⟩
  have hmount := @remount_returns { fs' with mediaErrors := [] }
    ⟨hmounted.magic, hmounted.volname, hmounted.nbits⟩
    ⟨hplaced.distinct, hplaced.inode, hplaced.range, hplaced.map⟩
    ⟨hdurable.inodes, hdurable.freemap, hdurable.super⟩ rfl
  obtain ⟨_, fs'', hdone, hsame⟩ := hmount.exists_ok
  exact ⟨fs'', hdone, hsame.disk, hsame.super, hsame.nbits, hsame.freemap⟩

theorem Synced.spNblocks (hsynced : Synced fs fs') : fs'.spNblocks = fs.spNblocks := by
  rw [SfsFs.spNblocks, hsynced.sfsSuper, SfsFs.spNblocks]

theorem Synced.placed (hsynced : Synced fs fs') (hplaced : Placed fs) : Placed fs' := by
  refine ⟨?_, ?_, ?_, ?_⟩
  · simp only [hsynced.sfsVnodes, hsynced.svIno]
    exact hplaced.distinct
  · simp only [hsynced.sfsVnodes, hsynced.svIno, hsynced.spNblocks]
    exact hplaced.inode
  · simp only [hsynced.sfsVnodes, hsynced.svIno, hsynced.wrote.dBlocks]
    exact hplaced.range
  · rw [hsynced.spNblocks, hsynced.wrote.dBlocks]
    exact hplaced.map

theorem Synced.mounted (hsynced : Synced fs fs') (hmounted : Mounted fs) : Mounted fs' := by
  refine ⟨?_, ?_, ?_⟩
  · rw [hsynced.sfsSuper]
    exact hmounted.magic
  · rw [hsynced.sfsSuper]
    exact hmounted.volname
  · rw [hsynced.sfsFreemap, hsynced.spNblocks]
    exact hmounted.nbits

theorem Synced.durable_iff (hsynced : Synced fs fs') (hplaced : Placed fs) :
    Durable fs' ↔ Clean fs ∧ Lands (pendingWrites fs) fs.mediaErrors fs.disk := by
  rw [← hplaced.onDisk_iff, ← hsynced.wrote.disk]
  constructor
  · intro hdurable
    refine ⟨?_, ?_, ?_⟩
    · intro sv hsv
      rw [← hsynced.svI, ← hsynced.svIno]
      rw [← hsynced.sfsVnodes] at hsv
      exact (hdurable.inodes sv hsv).2
    · intro j hj
      rw [← hsynced.sfsFreemap]
      rw [← hsynced.spNblocks] at hj
      exact hdurable.freemap j hj
    · rw [← hsynced.sfsSuper]
      exact hdurable.super
  · intro hdisk
    refine ⟨?_, ?_, ?_⟩
    · intro sv hsv
      rw [hsynced.sfsVnodes] at hsv
      rw [hsynced.svI, hsynced.svIno]
      exact ⟨hsynced.clean sv hsv, hdisk.inodes sv hsv⟩
    · intro j hj
      rw [hsynced.spNblocks] at hj
      rw [hsynced.sfsFreemap]
      exact hdisk.freemap j hj
    · rw [hsynced.sfsSuper]
      exact hdisk.super

/-- `sfs_sync` returns 0 for every pattern of device errors.  All that is in memory is then
on the disk, and the next mount finds it there, exactly where what is not marked dirty was
on the disk before and every write that the device fails is of a block that it holds
already. -/
theorem sync_durable_iff (hplaced : Placed fs) (hmounted : Mounted fs) :
    ∃ fs', sfsSync fs = .ok () fs' ∧
      ((Durable fs' ∧ (fs'.sfsVnodes = [] → Remounts fs')) ↔
        Clean fs ∧ Lands (pendingWrites fs) fs.mediaErrors fs.disk) := by
  obtain ⟨_, fs', hsync, hsynced⟩ := (sfsSync_returns hplaced).exists_ok
  refine ⟨fs', hsync, ?_⟩
  rw [← hsynced.durable_iff hplaced]
  constructor
  · exact fun h => h.1
  · intro hdurable
    refine ⟨hdurable, ?_⟩
    intro hempty
    exact remounts (hsynced.mounted hmounted) (hsynced.placed hplaced) hdurable hempty
      hsynced.sfsSuperdirty hsynced.sfsFreemapdirty

private def smallSuper : Block := (Record.zeros.set spMagic SFS_MAGIC).set spNblocksField 5

/-- A volume of five blocks with all of its metadata still to be written. -/
private def unsynced (errors : List Bool) : SfsFs where
  disk _ := Record.zeros
  dBlocks := 5
  mediaErrors := errors
  sfsSuper := smallSuper
  sfsSuperdirty := true
  sfsVnodes := [0]
  vnode _ := ⟨.sfsDirops, 1, Record.zeros.set sfiType 2, 1, true⟩
  sfsFreemap := Bitmap.bitmapCreate 4096
  sfsFreemapdirty := true

private theorem unsynced_nblocks (errors : List Bool) : (unsynced errors).spNblocks = 5 := by
  rw [SfsFs.spNblocks, unsynced, smallSuper, Record.get_set _ (by decide) (by decide)]

private theorem unsynced_placed (errors : List Bool) : Placed (unsynced errors) := by
  refine ⟨?_, ?_, ?_, ?_⟩
  · exact List.nodup_singleton 1
  · intro sv _
    exact Or.inl rfl
  · intro sv _
    show 1 < 5
    decide
  · rw [unsynced_nblocks]
    show 2 + sfsBitblocks 5 ≤ 5
    decide

private theorem unsynced_mounted (errors : List Bool) : Mounted (unsynced errors) := by
  refine ⟨?_, ?_, ?_⟩
  · show smallSuper.get spMagic = SFS_MAGIC
    decide
  · show endVolname smallSuper = smallSuper
    funext k
    revert k
    decide +kernel
  · rw [unsynced_nblocks]
    rfl

theorem sync_durable_no_error :
    ∃ fs', sfsSync (unsynced []) = .ok () fs' ∧ Durable fs' := by
  obtain ⟨fs', hsync, hiff⟩ := sync_durable_iff (unsynced_placed []) (unsynced_mounted [])
  refine ⟨fs', hsync, (hiff.mpr ⟨⟨?_, ?_, ?_⟩, ?_⟩).1⟩
  · intro sv _ hclean
    cases hclean
  · intro hclean
    cases hclean
  · intro hclean
    cases hclean
  · intro i w _ herror
    cases herror

/-- The write of the root inode fails, and `sfs_sync` returns 0. -/
theorem sync_loses_inode :
    ∃ fs', sfsSync (unsynced [true]) = .ok () fs' ∧ ¬ Durable fs' := by
  obtain ⟨_, fs', hsync, hsynced⟩ := (sfsSync_returns (unsynced_placed [true])).exists_ok
  refine ⟨fs', hsync, ?_⟩
  rw [hsynced.durable_iff (unsynced_placed [true])]
  rintro ⟨-, hlands⟩
  have hinode : (Record.zeros : Block) = Record.zeros.set sfiType 2 :=
    hlands 0 (1, Record.zeros.set sfiType 2) rfl rfl
  have htype := congrArg (fun data => Record.get data sfiType) hinode
  rw [Record.get_set _ (by decide) (by decide), Record.get_zeros] at htype
  cases htype

end OS161.Sfs
