import OS161.Data.Seq
import OS161.Sfs.FileIo
import OS161.Sfs.Vnode

namespace OS161.Sfs

open OS161.Data
open OS161.Kern
open OS161.Lib
open OS161.Vfs

/-! The root directory as a sequence of entries. -/

variable {fs fs' fs'' : SfsFs} {live : Nat → Bool} {sv ino n slot : Nat}

def dirEntry (b : Bytes) (slot : Nat) : SfsDir := Record.ofBytes fun k => b (slot * 64 + k)

/-- The entry in a slot of the root directory. -/
def SfsFs.entry (fs : SfsFs) (slot : Nat) : SfsDir := dirEntry (fileBytes (fs.file 1)) slot

/-- How many slots the root directory has. -/
def SfsFs.slots (fs : SfsFs) : Nat := (fs.inode 1).get sfiSize / 64

/-- The length of the root directory. -/
structure DirSize (fs : SfsFs) : Prop where
  whole : (fs.inode 1).get sfiSize % 64 = 0
  bound : (fs.inode 1).get sfiSize ≤ 143 * 512

/-- No two entries in use have the same name. -/
def DirNames (fs : SfsFs) : Prop :=
  ∀ i < fs.slots, ∀ j < fs.slots, i ≠ j → (fs.entry i).get sfdIno ≠ 0 →
    (fs.entry j).get sfdIno ≠ 0 → (fs.entry i).sfdName ≠ (fs.entry j).sfdName

theorem dirEntry_slice (b : Bytes) (slot : Nat) :
    Record.ofList (b.slice (slot * 64) 64) = dirEntry b slot := by
  funext k
  simp [Record.ofList, dirEntry, Record.ofBytes, Bytes.slice]

/-- Writing a slot changes this entry and no other. -/
theorem dirEntry_splice (b : Bytes) (sd : SfsDir) (slot : Nat) :
    dirEntry (b.splice (slot * 64) sd.list) = Function.update (dirEntry b) slot sd := by
  funext other
  have hlength := Record.length_list sd
  by_cases hother : other = slot
  · subst hother
    rw [Function.update_self]
    funext k
    rw [dirEntry, Record.ofBytes, Bytes.splice_of_mem (by omega) (by omega)]
    have hofList := congrFun (Record.ofList_list sd) k
    rw [Record.ofList] at hofList
    rw [show other * 64 + k - other * 64 = k by omega, hofList]
  · rw [Function.update_of_ne hother]
    funext k
    rw [dirEntry, dirEntry, Record.ofBytes, Record.ofBytes]
    by_cases hlow : other < slot
    · rw [Bytes.splice_of_lt (by omega)]
    · rw [Bytes.splice_of_ge (by omega)]

theorem Loaded.dirSize (hloaded : Loaded fs sv 1) (h : Files n live fs) :
    (fs.inode 1).get sfiSize = fs.size sv := by
  rw [hloaded.inode h, SfsFs.size]

/-! Reading a slot. -/

theorem mkKuio_covers (buffer : List Byte) (pos : Nat) (rw : UioRw)
    (hlength : buffer.length < 2 ^ 32) : (Uio.mkKuio buffer pos rw).Covers :=
  ⟨Nat.le_refl _, hlength⟩

theorem kuio_resident (buffer : List Byte) (pos : Nat) (rw : UioRw) :
    (Uio.mkKuio buffer pos rw).Resident := by
  intro reach hreach
  cases hreach

/-- A transfer that uses up the buffer. -/
theorem kuio_full {buffer data : List Byte} (pos : Nat) (rw : UioRw)
    (hlength : buffer.length < 2 ^ 32) (hdata : data.length = buffer.length) :
    ((Uio.mkKuio buffer pos rw).advance data).uioResid = 0 ∧
      ((Uio.mkKuio buffer pos rw).advance data).passed ++
        ((Uio.mkKuio buffer pos rw).advance data).iov = data := by
  constructor
  · rw [(mkKuio_covers buffer pos rw hlength).resid_advance (Nat.le_of_eq hdata), hdata]
    exact Nat.sub_self _
  · have hdrop : buffer.drop data.length = [] :=
      List.drop_of_length_le (Nat.le_of_eq hdata.symm)
    simp only [Uio.advance, Uio.mkKuio, hdrop, List.nil_append, List.append_nil]

theorem sfsReaddir_wp (h : Files n live fs) (hloaded : Loaded fs sv 1) (hsize : DirSize fs)
    (hslot : slot < fs.slots) :
    Prog.Returns (sfsReaddir sv slot) (fun sd fs' => sd = fs.entry slot ∧ fs' = fs) fs := by
  have hlength : (List.replicate 64 (0 : Byte)).length = 64 := List.length_replicate
  unfold sfsReaddir Prog.Returns
  generalize List.replicate 64 (0 : Byte) = buffer at hlength
  have hdir := hloaded.dirSize h
  have hbound := hsize.bound
  have hwhole := hsize.whole
  unfold SfsFs.slots at hslot
  have hend : (Uio.mkKuio buffer (slot * 64) .UIO_READ).uioOffset +
      (Uio.mkKuio buffer (slot * 64) .UIO_READ).uioResid < 2 ^ 31 := by
    show slot * 64 + buffer.length < 2 ^ 31
    omega
  have hall : min (Uio.mkKuio buffer (slot * 64) .UIO_READ).uioResid
      (fs.size sv - (Uio.mkKuio buffer (slot * 64) .UIO_READ).uioOffset) = 64 := by
    show min buffer.length (fs.size sv - slot * 64) = 64
    omega
  have hread := sfsIo_read h hloaded (mkKuio_covers buffer (slot * 64) .UIO_READ (by omega))
    (kuio_resident _ _ _) rfl (by omega) hend
  have hpos : (Uio.mkKuio buffer (slot * 64) .UIO_READ).uioOffset = slot * 64 := rfl
  unfold Reads at hread
  rw [hall, hpos] at hread
  simp only [↓Prog.wp_bind, wp_withKuio]
  refine Prog.Returns.mono hread ?_
  intro _ io hio
  subst hio
  have hdata : ((fileBytes (fs.file 1)).slice (slot * 64) 64).length = buffer.length := by
    rw [Bytes.length_slice, hlength]
  have hfull := kuio_full (slot * 64) .UIO_READ (by omega) hdata
  generalize (Uio.mkKuio buffer (slot * 64) .UIO_READ).advance
    ((fileBytes (fs.file 1)).slice (slot * 64) 64) = ku at hfull ⊢
  rw [Prog.wp_assert]
  refine (if_pos hfull.1).mpr ⟨?_, rfl⟩
  rw [SfsFs.entry, ← dirEntry_slice]
  exact congrArg Record.ofList hfull.2

/-! Writing a slot. -/

/-- The slot has a new entry. -/
structure DirWritten (n : Nat) (live : Nat → Bool) (sv : Nat) (fs : SfsFs) (slot : Nat)
    (sd : SfsDir) (fs' : SfsFs) : Prop where
  files : Files n live fs'
  only : OnlyFile live sv fs fs'
  entry : fs'.entry = Function.update fs.entry slot sd
  slots : fs'.slots = max fs.slots (slot + 1)
  size : DirSize fs'

/-- The directory is as it was. -/
structure DirSame (n : Nat) (live : Nat → Bool) (sv : Nat) (fs fs' : SfsFs) : Prop where
  files : Files n live fs'
  only : OnlyFile live sv fs fs'
  entry : fs'.entry = fs.entry
  slots : fs'.slots = fs.slots
  size : DirSize fs'

theorem DirSame.refl (h : Files n live fs) (hsize : DirSize fs) (sv : Nat) :
    DirSame n live sv fs fs :=
  ⟨h, .refl live sv fs, rfl, rfl, hsize⟩

theorem mkKuio_write (sd : SfsDir) (slot : Nat) :
    (Uio.mkKuio sd.list (slot * 64) .UIO_WRITE).iov.take 64 = sd.list :=
  List.take_of_length_le (Nat.le_of_eq (Record.length_list sd))

theorem Stored.dirWritten {sd : SfsDir} {io : Io}
    (hstored : Stored n live sv 1 fs (Uio.mkKuio sd.list (slot * 64) .UIO_WRITE) 64 io)
    (h : Files n live fs) (hloaded : Loaded fs sv 1) (hsize : DirSize fs)
    (hslot : slot ≤ fs.slots) : DirWritten n live sv fs slot sd io.fs := by
  have hdir := hloaded.dirSize h
  have hdir' := (hloaded.only hstored.only).dirSize hstored.files
  have hbound := hsize.bound
  have hwhole := hsize.whole
  have hend : slot * 64 + 64 ≤ 143 * 512 := hstored.bound (by decide)
  have hgrown : io.fs.size sv = grown (fs.size sv) (slot * 64 + 64) := hstored.size
  unfold SfsFs.slots at hslot
  have hlength : io.fs.size sv = max (fs.size sv) (slot * 64 + 64) := by
    rw [hgrown, grown, offT_of_lt (by omega)]
    split
    case isTrue hlt => omega
    case isFalse hle => omega
  refine ⟨hstored.files, hstored.only, ?_, ?_, ⟨?_, ?_⟩⟩
  · funext other
    rw [SfsFs.entry, hstored.bytes, mkKuio_write]
    exact congrFun (dirEntry_splice _ sd slot) other
  · unfold SfsFs.slots
    rw [hdir', hlength, ← hdir]
    omega
  · rw [hdir', hlength, ← hdir]
    omega
  · rw [hdir', hlength, ← hdir]
    omega

theorem Stored.dirSame {sd : SfsDir} {io : Io}
    (hstored : Stored n live sv 1 fs (Uio.mkKuio sd.list (slot * 64) .UIO_WRITE) 0 io)
    (h : Files n live fs) (hloaded : Loaded fs sv 1) (hsize : DirSize fs)
    (hslot : slot ≤ fs.slots) : DirSame n live sv fs io.fs := by
  have hdir := hloaded.dirSize h
  have hdir' := (hloaded.only hstored.only).dirSize hstored.files
  have hbound := hsize.bound
  have hwhole := hsize.whole
  have hgrown : io.fs.size sv = grown (fs.size sv) (slot * 64 + 0) := hstored.size
  unfold SfsFs.slots at hslot
  have hlength : io.fs.size sv = fs.size sv := by
    rw [hgrown, grown, offT_of_lt (by omega), if_neg (by omega)]
  refine ⟨hstored.files, hstored.only, ?_, ?_, ⟨?_, ?_⟩⟩
  · funext other
    rw [SfsFs.entry, hstored.bytes, List.take_zero, Bytes.splice_nil, SfsFs.entry]
  · unfold SfsFs.slots
    rw [hdir', hlength, hdir]
  · rw [hdir', hlength, ← hdir]
    exact hwhole
  · rw [hdir', hlength, ← hdir]
    exact hbound

/-- Why there is no place for an entry in a slot, and the free map after the attempt. -/
inductive NoEntry (fs : SfsFs) (slot : Nat) : Bitmap → Prop where
  | full {freemap : Bitmap} (hinside : slot * 64 / 512 < 143)
      (hhole : fs.blockAt 1 (.data (slot * 64 / 512)) = 0)
      (hspace : NoSpace fs 1 (slot * 64 / 512) freemap) : NoEntry fs slot freemap
  | past (hpast : 143 ≤ slot * 64 / 512) : NoEntry fs slot fs.sfsFreemap

/-- An entry is written whole or not at all. -/
theorem sfsWritedir_wp (h : Files n live fs) (hloaded : Loaded fs sv 1) (hsize : DirSize fs)
    (sd : SfsDir) (hslot : slot ≤ fs.slots) :
    Prog.wp (sfsWritedir sv sd slot)
      (fun _ fs' => DirWritten n live sv fs slot sd fs' ∧
        fs.lacks 1 (slot * 64 / 512) ≤ fs.freeBlocks)
      (fun _ fs' => DirSame n live sv fs fs' ∧ NoEntry fs slot fs'.sfsFreemap) (fun _ => False)
      fs := by
  have hlength := Record.length_list sd
  have hbound := hsize.bound
  unfold SfsFs.slots at hslot
  have hresid : (Uio.mkKuio sd.list (slot * 64) .UIO_WRITE).uioResid = 64 := hlength
  have hoffset : (Uio.mkKuio sd.list (slot * 64) .UIO_WRITE).uioOffset = slot * 64 := rfl
  have hcovers := mkKuio_covers sd.list (slot * 64) .UIO_WRITE (by omega)
  have hwithin := sfsIo_within h hloaded hcovers rfl (by omega) (by omega) (by omega) (by omega)
  rw [hresid] at hwithin
  simp only [sfsWritedir, ↓Prog.wp_bind, wp_withKuio]
  refine Prog.wp_mono hwithin ?_ ?_ (fun _ hbad => hbad)
  · intro _ io ⟨hstored, hroom⟩
    have hleft : io.uio.uioResid = 0 := by
      rw [hstored.uio, resid_advance hcovers (Nat.le_of_eq hresid.symm), hresid]
    rw [Prog.wp_assert, if_pos hleft]
    exact ⟨hstored.dirWritten h hloaded hsize hslot, hroom⟩
  · intro code io ⟨hstored, hstuck⟩
    refine ⟨hstored.dirSame h hloaded hsize hslot, ?_⟩
    generalize hfreemap : io.fs.sfsFreemap = freemap at hstuck
    cases hstuck with
    | full hinside hhole hspace => exact .full hinside hhole hspace
    | past hpast => exact .past hpast
    | fault hfault => exact absurd (kuio_resident _ _ _) hfault

/-! Searching the directory. -/

/-- The root directory is loaded at `sv` and in order. -/
structure RootDir (n : Nat) (live : Nat → Bool) (sv : Nat) (fs : SfsFs) : Prop where
  files : Files n live fs
  loaded : Loaded fs sv 1
  type : (fs.vnode sv).svI.get sfiType = 2
  size : DirSize fs
  names : DirNames fs

theorem sfsDirNentries_wp (h : RootDir n live sv fs) :
    Prog.Returns (sfsDirNentries sv) (fun count fs' => count = fs.slots ∧ fs' = fs) fs := by
  have hdir : (fs.inode 1).get sfiSize = (fs.vnode sv).svI.get sfiSize :=
    h.loaded.dirSize h.files
  have hwhole := h.size.whole
  rw [hdir] at hwhole
  unfold Prog.Returns
  simp only [sfsDirNentries, ↓Prog.wp_bind, ↓Prog.wp_get, ↓Prog.wp_assert, ↓Prog.wp_pure]
  rw [if_pos h.type, if_pos hwhole]
  refine ⟨?_, trivial⟩
  rw [SfsFs.slots, hdir]

/-- The last free slot among the first ones. -/
def SfsFs.lastFree (fs : SfsFs) : Nat → Option Nat
  | 0 => none
  | count + 1 => if (fs.entry count).get sfdIno = 0 then some count else fs.lastFree count

/-- The slot that a new entry goes into. -/
def SfsFs.freeSlot (fs : SfsFs) : Nat := (fs.lastFree fs.slots).getD fs.slots

theorem lastFree_spec {count i : Nat} (hfree : fs.lastFree count = some i) :
    i < count ∧ (fs.entry i).get sfdIno = 0 := by
  induction count with
  | zero => cases hfree
  | succ count ih =>
      unfold SfsFs.lastFree at hfree
      split at hfree
      case isTrue hempty =>
          cases hfree
          exact ⟨Nat.lt_succ_self _, hempty⟩
      case isFalse =>
          obtain ⟨hlt, hempty⟩ := ih hfree
          exact ⟨by omega, hempty⟩

theorem freeSlot_congr (hentry : fs'.entry = fs.entry) (hslots : fs'.slots = fs.slots) :
    fs'.freeSlot = fs.freeSlot := by
  have hlast : ∀ count, fs'.lastFree count = fs.lastFree count := by
    intro count
    induction count with
    | zero => rfl
    | succ count ih => rw [SfsFs.lastFree, SfsFs.lastFree, hentry, ih]
  rw [SfsFs.freeSlot, SfsFs.freeSlot, hlast, hslots]

theorem freeSlot_le (fs : SfsFs) : fs.freeSlot ≤ fs.slots := by
  unfold SfsFs.freeSlot
  cases hfree : fs.lastFree fs.slots with
  | none => exact Nat.le_refl _
  | some slot => exact Nat.le_of_lt (lastFree_spec hfree).1

theorem freeSlot_free (hinside : fs.freeSlot < fs.slots) :
    (fs.entry fs.freeSlot).get sfdIno = 0 := by
  unfold SfsFs.freeSlot at hinside ⊢
  cases hfree : fs.lastFree fs.slots with
  | none =>
      rw [hfree] at hinside
      exact absurd hinside (Nat.lt_irrefl _)
  | some slot => exact (lastFree_spec hfree).2

/-- What the search knows after the first `count` slots. -/
structure Scanned (fs : SfsFs) (name : List Byte) (count : Nat) (scan : DirScan) : Prop where
  found : ∀ i ino, scan.found = some (i, ino) → i < count ∧ (fs.entry i).get sfdIno = ino ∧
    ino ≠ 0 ∧ (fs.entry i).sfdName = name
  absent : scan.found = none → ∀ i < count, (fs.entry i).get sfdIno ≠ 0 →
    (fs.entry i).sfdName ≠ name
  empty : scan.emptyslot = fs.lastFree count

theorem findnameSlot_wp {name : Name} {i : Nat} {scan : DirScan} (h : RootDir n live sv fs)
    (hi : i < fs.slots) (hscan : Scanned fs name.val i scan) :
    Prog.Returns (findnameSlot sv name i scan)
      (fun scan' fs' => Scanned fs name.val (i + 1) scan' ∧ fs' = fs) fs := by
  unfold findnameSlot Prog.Returns
  rw [Prog.wp_bind]
  refine Prog.Returns.mono (sfsReaddir_wp h.files h.loaded h.size hi) ?_
  intro tsd _ ⟨htsd, hsame⟩
  subst htsd hsame
  rw [Prog.wp_ite]
  split
  case isTrue hfree =>
      refine ⟨⟨?_, ?_, ?_⟩, rfl⟩
      · intro j ino hfound
        have hold := hscan.found j ino hfound
        exact ⟨by omega, hold.2⟩
      · intro hnone j hj hused
        by_cases heq : j = i
        · rw [heq] at hused
          exact absurd hfree hused
        · exact hscan.absent hnone j (by omega) hused
      · rw [SfsFs.lastFree, if_pos hfree]
  case isFalse hused =>
  rw [Prog.wp_ite]
  split
  case isTrue hname =>
      -- a second entry with the name would be one too many
      have hnone : scan.found = none := by
        cases hfound : scan.found with
        | none => rfl
        | some first =>
            obtain ⟨hlt, hino, hne, hsame⟩ := hscan.found first.1 first.2 hfound
            rw [← hino] at hne
            exact absurd (hsame.trans hname.symm)
              (h.names first.1 (by omega) i hi (by omega) hne hused)
      rw [Prog.wp_bind, Prog.wp_assert, if_pos hnone]
      refine ⟨⟨?_, ?_, ?_⟩, rfl⟩
      · intro j ino hfound
        cases hfound
        exact ⟨Nat.lt_succ_self i, rfl, hused, hname⟩
      · intro hfound
        cases hfound
      · rw [SfsFs.lastFree, if_neg hused]
        exact hscan.empty
  case isFalse hother =>
      refine ⟨⟨?_, ?_, ?_⟩, rfl⟩
      · intro j ino hfound
        have hold := hscan.found j ino hfound
        exact ⟨by omega, hold.2⟩
      · intro hnone j hj hinuse
        by_cases heq : j = i
        · rw [heq]
          exact hother
        · exact hscan.absent hnone j (by omega) hinuse
      · rw [SfsFs.lastFree, if_neg hused]
        exact hscan.empty

theorem sfsDirFindname_wp (h : RootDir n live sv fs) (name : Name) :
    Prog.Returns (sfsDirFindname sv name)
      (fun scan fs' => Scanned fs name.val fs.slots scan ∧ fs' = fs) fs := by
  unfold sfsDirFindname Prog.Returns
  rw [Prog.wp_bind]
  refine Prog.Returns.mono (sfsDirNentries_wp h) ?_
  intro count fs' ⟨hcount, hsame⟩
  rw [hcount, hsame]
  have hstart : Scanned fs name.val 0 { found := none, emptyslot := none } ∧ fs = fs := by
    refine ⟨⟨?_, ?_, ?_⟩, rfl⟩
    · intro i ino hfound
      cases hfound
    · intro _ i hi
      exact absurd hi (Nat.not_lt_zero i)
    · rfl
  refine Prog.Returns.mono (Prog.wp_forFrom
    (fun i scan fs' => Scanned fs name.val i scan ∧ fs' = fs) ?_ hstart) ?_
  · intro i scan fs' _ hi ⟨hscan, hsame⟩
    rw [hsame]
    exact findnameSlot_wp h (by omega) hscan
  · intro scan fs' hdone
    rw [Nat.zero_add] at hdone
    exact hdone

/-! New entries. -/

theorem ino_makeSfsDir (hino : ino < 2 ^ 32) (name : List Byte) :
    (makeSfsDir ino name).get sfdIno = ino := by
  have hsame : (makeSfsDir ino name).get sfdIno =
      ((Record.zeros : SfsDir).set sfdIno ino).get sfdIno := by
    rw [makeSfsDir, Record.get_ofBytes (by decide)]
    apply Bytes.number_congr
    intro k _ hlt
    have hfield : sfdIno.off + sfdIno.len = 4 := rfl
    exact Bytes.splice_of_lt (by omega) name
  rw [hsame]
  exact Record.get_set _ (by decide) hino

/-- The bytes after the inode number: the name and zeros. -/
theorem list_makeSfsDir (ino : Nat) {name : List Byte} (hshort : name.length < 60) :
    (makeSfsDir ino name).list.drop 4 = name ++ List.replicate (60 - name.length) 0 := by
  apply List.ext_getElem
  · simp only [List.length_drop, Record.length_list, List.length_append, List.length_replicate]
    omega
  · intro i hi _
    simp only [List.length_drop, Record.length_list] at hi
    have hbyte : (makeSfsDir ino name).list.drop 4 = List.map
        (fun k => (makeSfsDir ino name).bytes (0 + k)) ((List.range 64).drop 4) := by
      rw [Record.list, Bytes.slice, List.map_drop]
    simp only [hbyte, List.getElem_map, List.getElem_drop, List.getElem_range, Nat.zero_add]
    rw [makeSfsDir, Record.bytes_ofBytes (by omega)]
    by_cases hin : i < name.length
    · rw [Bytes.splice_of_mem (by omega) (by omega), List.getElem_append_left hin,
        Nat.add_sub_cancel_left, List.getD_eq_getElem _ _ hin]
    · rw [Bytes.splice_of_ge (by omega), List.getElem_append_right (by omega),
        List.getElem_replicate, Record.set, Record.bytes_ofBytes (by omega), Bytes.set,
        Bytes.putNumber, if_neg (by simp only [sfdIno]; omega), Record.bytes_zeros]

theorem sfdName_makeSfsDir (ino : Nat) (name : Name) (hshort : name.val.length < 60) :
    (makeSfsDir ino name.val).sfdName = name.val := by
  have hzeros : (name.val ++ List.replicate (60 - name.val.length) (0 : Byte)).set 59 0 =
      name.val ++ List.replicate (60 - name.val.length) 0 := by
    rw [List.set_append_right _ _ (by omega), List.set_replicate_self]
  rw [SfsDir.sfdName, list_makeSfsDir ino hshort, hzeros, List.takeWhile_append_of_pos]
  · have hnone : (List.replicate (60 - name.val.length) (0 : Byte)).takeWhile (· ≠ 0) = [] := by
      rw [show 60 - name.val.length = (59 - name.val.length) + 1 by omega, List.replicate_succ]
      rfl
    rw [hnone, List.append_nil]
  · intro byte hbyte
    rw [decide_eq_true_eq]
    intro hzero
    rw [hzero] at hbyte
    exact name.property hbyte

/-! The links of an inode. -/

/-- How many entries of the root directory name an inode. -/
def SfsFs.links (fs : SfsFs) (ino : Nat) : Nat :=
  Nat.count (fun slot => (fs.entry slot).get sfdIno = ino) fs.slots

/-- A slot that an inode is in. -/
theorem links_pos_iff : fs.links ino ≠ 0 ↔ ∃ slot < fs.slots, (fs.entry slot).get sfdIno = ino :=
  Nat.count_ne_iff_exists

/-- The slot held this inode number. -/
abbrev SfsFs.Holds (fs : SfsFs) (slot ino : Nat) : Prop :=
  slot < fs.slots ∧ (fs.entry slot).get sfdIno = ino

theorem DirWritten.links {sd : SfsDir} (hwritten : DirWritten n live sv fs slot sd fs')
    (hslot : slot ≤ fs.slots) (ino : Nat) :
    fs'.links ino + (if fs.Holds slot ino then 1 else 0) =
      fs.links ino + (if sd.get sfdIno = ino then 1 else 0) := by
  unfold SfsFs.links
  rw [hwritten.slots, hwritten.entry]
  have hsame : ∀ i, i ≠ slot → ((Function.update fs.entry slot sd i).get sfdIno = ino ↔
      (fs.entry i).get sfdIno = ino) := by
    intro i hi
    rw [Function.update_of_ne hi]
  by_cases hinside : slot < fs.slots
  · have hcount := count_change hsame hinside
    rw [Function.update_self] at hcount
    rw [show max fs.slots (slot + 1) = fs.slots by omega]
    simpa only [SfsFs.Holds, hinside, true_and] using hcount
  · have hlast : slot = fs.slots := by omega
    have hcount := count_change hsame (Nat.lt_add_one slot)
    rw [Function.update_self] at hcount
    rw [show max fs.slots (slot + 1) = slot + 1 by omega, if_neg (fun hin => hinside hin.1),
      ← hlast]
    rw [Nat.count_succ (fun i => (fs.entry i).get sfdIno = ino)] at hcount
    omega

/-- The other entries have the names they had. -/
theorem DirWritten.names {sd : SfsDir} (hwritten : DirWritten n live sv fs slot sd fs')
    (hnames : DirNames fs) (hslot : slot ≤ fs.slots)
    (hnew : sd.get sfdIno ≠ 0 → ∀ i < fs.slots, i ≠ slot → (fs.entry i).get sfdIno ≠ 0 →
      (fs.entry i).sfdName ≠ sd.sfdName) : DirNames fs' := by
  intro i hi j hj hne hiused hjused
  rw [hwritten.slots] at hi hj
  rw [hwritten.entry] at hiused hjused ⊢
  by_cases hislot : i = slot
  · rw [hislot] at hne hiused ⊢
    rw [Function.update_self] at hiused ⊢
    rw [Function.update_of_ne (Ne.symm hne)] at hjused ⊢
    exact (hnew hiused j (by omega) (Ne.symm hne) hjused).symm
  · rw [Function.update_of_ne hislot] at hiused ⊢
    by_cases hjslot : j = slot
    · rw [hjslot] at hjused ⊢
      rw [Function.update_self] at hjused ⊢
      exact hnew hjused i (by omega) hislot hiused
    · rw [Function.update_of_ne hjslot] at hjused ⊢
      exact hnames i (by omega) j (by omega) hne hiused hjused

theorem DirWritten.rootDir {sd : SfsDir} (hwritten : DirWritten n live sv fs slot sd fs')
    (h : RootDir n live sv fs) (hnames : DirNames fs') : RootDir n live sv fs' :=
  ⟨hwritten.files, h.loaded.only hwritten.only, hwritten.only.type.trans h.type, hwritten.size,
    hnames⟩

theorem DirSame.rootDir (hsame : DirSame n live sv fs fs') (h : RootDir n live sv fs) :
    RootDir n live sv fs' := by
  refine ⟨hsame.files, h.loaded.only hsame.only, hsame.only.type.trans h.type, hsame.size, ?_⟩
  unfold DirNames
  rw [hsame.entry, hsame.slots]
  exact h.names

theorem DirSame.links (hsame : DirSame n live sv fs fs') : fs'.links = fs.links := by
  funext ino
  unfold SfsFs.links
  rw [hsame.entry, hsame.slots]

/-- The name is in the directory now, in a slot that was free. -/
structure Linked (n : Nat) (live : Nat → Bool) (sv : Nat) (fs : SfsFs) (name : Name)
    (ino slot : Nat) (fs' : SfsFs) : Prop where
  absent : ∀ i < fs.slots, (fs.entry i).get sfdIno ≠ 0 → (fs.entry i).sfdName ≠ name.val
  short : name.val.length < 60
  chosen : slot = fs.freeSlot
  room : fs.lacks 1 (slot * 64 / 512) ≤ fs.freeBlocks
  written : DirWritten n live sv fs slot (makeSfsDir ino name.val) fs'
  dir : RootDir n live sv fs'
  links : ∀ other, other ≠ 0 → fs'.links other = fs.links other + if ino = other then 1 else 0

theorem Linked.inside {name : Name} (hlinked : Linked n live sv fs name ino slot fs') :
    slot ≤ fs.slots := by
  rw [hlinked.chosen]
  exact freeSlot_le fs

theorem Linked.free {name : Name} (hlinked : Linked n live sv fs name ino slot fs')
    (hinside : slot < fs.slots) : (fs.entry slot).get sfdIno = 0 := by
  have hchosen := hlinked.chosen
  subst hchosen
  exact freeSlot_free hinside

theorem chooseSlot_wp {name : List Byte} {scan : DirScan} (h : RootDir n live sv fs)
    (hscan : Scanned fs name fs.slots scan) :
    Prog.Returns (chooseSlot sv scan.emptyslot)
      (fun slot fs' => slot = fs.freeSlot ∧ fs' = fs) fs := by
  unfold SfsFs.freeSlot
  rw [hscan.empty]
  cases fs.lastFree fs.slots with
  | some slot => exact ⟨rfl, rfl⟩
  | none => exact sfsDirNentries_wp h

/-- Why a name cannot be entered, and the free map after the attempt. -/
inductive NotLinked (fs : SfsFs) (name : Name) : Bitmap → Prop where
  | bound (slot : Nat) (hslot : slot < fs.slots) (hused : (fs.entry slot).get sfdIno ≠ 0)
      (hname : (fs.entry slot).sfdName = name.val) : NotLinked fs name fs.sfsFreemap
  | long (hlong : 60 ≤ name.val.length) : NotLinked fs name fs.sfsFreemap
  | noEntry {freemap : Bitmap} (hshort : name.val.length < 60)
      (hnone : NoEntry fs fs.freeSlot freemap) : NotLinked fs name freemap

theorem sfsDirLink_wp (h : RootDir n live sv fs) (name : Name) (hino : ino < 2 ^ 32) :
    Prog.wp (sfsDirLink sv name ino) (fun slot fs' => Linked n live sv fs name ino slot fs')
      (fun _ fs' => DirSame n live sv fs fs' ∧ NotLinked fs name fs'.sfsFreemap)
      (fun _ => False) fs := by
  have hsame := DirSame.refl h.files h.size sv
  unfold sfsDirLink
  rw [Prog.wp_bind]
  refine Prog.wp_mono (sfsDirFindname_wp h name) ?_ (fun _ _ hfails => hfails.elim)
    (fun _ hbad => hbad)
  rintro scan fs₁ ⟨hscan, hfs₁⟩
  rw [hfs₁]
  simp only [↓Prog.wp_bind, ↓Prog.wp_when, ↓Prog.wp_fail]
  split
  case isTrue hsome =>
      obtain ⟨⟨slot, ino'⟩, hfound⟩ := Option.isSome_iff_exists.mp hsome
      obtain ⟨hslot, hat, hused, hname⟩ := hscan.found slot ino' hfound
      rw [← hat] at hused
      exact ⟨hsame, .bound slot hslot hused hname⟩
  case isFalse hnone =>
  split
  case isTrue hlong => exact ⟨hsame, .long (by omega)⟩
  case isFalse hshort =>
  have hnone' : scan.found = none := by simpa using hnone
  refine Prog.wp_mono (chooseSlot_wp h hscan) ?_ (fun _ _ hfails => hfails.elim)
    (fun _ hbad => hbad)
  rintro slot fs₂ ⟨hchosen, hfs₂⟩
  have hslot : slot ≤ fs.slots := by
    rw [hchosen]
    exact freeSlot_le fs
  have hfree : slot < fs.slots → (fs.entry slot).get sfdIno = 0 := by
    rw [hchosen]
    exact freeSlot_free
  rw [hfs₂]
  refine Prog.wp_mono (sfsWritedir_wp h.files h.loaded h.size _ hslot) ?_ ?_ (fun _ hbad => hbad)
  · rintro _ fs₃ ⟨hwritten, hroom⟩
    have hnames : DirNames fs₃ := by
      refine hwritten.names h.names hslot ?_
      intro _ i hi _ hinuse
      rw [sfdName_makeSfsDir _ _ (by omega)]
      exact hscan.absent hnone' i hi hinuse
    refine ⟨hscan.absent hnone', by omega, hchosen, hroom, hwritten, hwritten.rootDir h hnames,
      ?_⟩
    intro other hother
    have hlinks := hwritten.links hslot other
    rw [ino_makeSfsDir hino, if_neg ?_, Nat.add_zero] at hlinks
    · exact hlinks
    · rintro ⟨hin, hheld⟩
      rw [hfree hin] at hheld
      exact hother hheld.symm
  · rintro _ fs₃ ⟨hnothing, hnoEntry⟩
    rw [hchosen] at hnoEntry
    exact ⟨hnothing, .noEntry (by omega) hnoEntry⟩

/-! Entries that are erased. -/

/-- An entry in use is in a block of the disk. -/
theorem entry_mapped (hused : (fs.entry slot).get sfdIno ≠ 0) :
    fs.blockAt 1 (.data (slot * 64 / 512)) ≠ 0 := by
  intro hhole
  apply hused
  have hblock : fs.file 1 (slot * 64 / 512) = Record.zeros := by
    have hnone : dataBlock fs.disk (fs.inode 1) (slot * 64 / 512) = 0 := hhole
    rw [SfsFs.file, fileBlock, if_pos hnone]
  have hzero : fs.entry slot = Record.zeros := by
    funext k
    have hk := k.isLt
    show fileBytes (fs.file 1) (slot * 64 + k) = 0
    rw [fileBytes, show (slot * 64 + k) / 512 = slot * 64 / 512 by omega, hblock,
      Record.bytes_zeros]
  rw [hzero, Record.get_zeros]

/-- The entry is gone. -/
structure Unlinked (n : Nat) (live : Nat → Bool) (sv : Nat) (fs : SfsFs) (slot : Nat)
    (fs' : SfsFs) : Prop where
  written : DirWritten n live sv fs slot Record.zeros fs'
  dir : RootDir n live sv fs'
  links : ∀ other, other ≠ 0 →
    fs'.links other + (if (fs.entry slot).get sfdIno = other then 1 else 0) = fs.links other

theorem sfsDirUnlink_wp (h : RootDir n live sv fs) (hslot : slot < fs.slots)
    (hused : (fs.entry slot).get sfdIno ≠ 0) :
    Prog.Returns (sfsDirUnlink sv slot) (fun _ fs' => Unlinked n live sv fs slot fs') fs := by
  unfold sfsDirUnlink
  have hle := Nat.le_of_lt hslot
  refine Prog.wp_mono (sfsWritedir_wp h.files h.loaded h.size _ hle) ?_ ?_ (fun _ hbad => hbad)
  · intro _ fs' ⟨hwritten, _⟩
    have hnames : DirNames fs' := by
      refine hwritten.names h.names hle ?_
      intro hzero
      exact absurd (Record.get_zeros _) hzero
    refine ⟨hwritten, hwritten.rootDir h hnames, ?_⟩
    intro other hother
    have hlinks := hwritten.links hle other
    rw [Record.get_zeros, if_neg (Ne.symm hother), Nat.add_zero] at hlinks
    simpa only [SfsFs.Holds, hslot, true_and] using hlinks
  · intro _ fs' ⟨_, hnoEntry⟩
    have hbound := h.size.bound
    unfold SfsFs.slots at hslot
    generalize fs'.sfsFreemap = freemap at hnoEntry
    cases hnoEntry with
    | full _ hhole => exact entry_mapped hused hhole
    | past hpast => omega

end OS161.Sfs
