import OS161.Sfs.Fs

namespace OS161.Sfs

open OS161.Data
open OS161.Kern
open OS161.Lib
open OS161.Vfs

/-! What the transfers of single blocks do. -/

variable {fs : SfsFs} {u : Uio} {sector block : Nat}

/-- Whether the next transfer of the device fails. -/
def SfsFs.nextError (fs : SfsFs) : Bool := fs.mediaErrors.headD false

/-- The file system after a transfer that left the disk alone. -/
def SfsFs.afterIo (fs : SfsFs) : SfsFs := { fs with mediaErrors := fs.mediaErrors.tail }

/-- The file system with another block on its disk. -/
def SfsFs.withBlock (fs : SfsFs) (block : Nat) (data : Block) : SfsFs :=
  { fs with disk := Function.update fs.disk block data }

theorem wp_lhResult {post : Unit → SfsFs → Prop} {fails : Errno → SfsFs → Prop}
    {bad : Fault → Prop} :
    Prog.wp lhResult post fails bad fs ↔
      if fs.nextError = true then fails .EIOERR fs.afterIo else post () fs.afterIo := by
  unfold Prog.wp lhResult SfsFs.nextError SfsFs.afterIo
  cases herrors : fs.mediaErrors with
  | nil => cases fs; cases herrors; simp [Result.Sat]
  | cons error rest =>
      cases error with
      | true => simp [Result.Sat]
      | false => simp [Result.Sat]

theorem wp_onFs {post : α → Io → Prop} {fails : Errno → Io → Prop} {bad : Fault → Prop}
    {io : Io} (body : Op α) :
    Prog.wp (onFs body) post fails bad io ↔
      Prog.wp body (fun value fs => post value { io with fs := fs })
        (fun code fs => fails code { io with fs := fs }) bad io.fs :=
  Prog.wp_zoom _ _ body

theorem wp_onUio {post : α → Io → Prop} {fails : Errno → Io → Prop} {bad : Fault → Prop}
    {io : Io} (body : Uio.Op α) :
    Prog.wp (onUio body) post fails bad io ↔
      Prog.wp body (fun value uio => post value { io with uio := uio })
        (fun code uio => fails code { io with uio := uio }) bad io.uio :=
  Prog.wp_zoom _ _ body

/-- A sector goes from the buffer to the device before its status is known. -/
theorem lhdSector_write {post : Unit → Io → Prop} {fails : Errno → Io → Prop}
    {bad : Fault → Prop} (hcovers : u.Covers) (hrw : u.uioRw = .UIO_WRITE)
    (hresid : 512 ≤ u.uioResid)
    (hfault : ¬ u.Resident → fails .EFAULT ⟨fs, u⟩)
    (herror : fs.nextError = true → fails .EIOERR ⟨fs.afterIo, u.advance (u.iov.take 512)⟩)
    (hdone : fs.nextError = false →
      post () ⟨fs.afterIo.withBlock sector (Record.ofList (u.iov.take 512)),
        u.advance (u.iov.take 512)⟩) :
    Prog.wp (lhdSector sector) post fails bad ⟨fs, u⟩ := by
  have hzeros : (List.replicate 512 (0 : Byte)).length = 512 := List.length_replicate
  simp only [lhdSector, ↓Prog.wp_bind, ↓Prog.wp_get, hrw, if_true, wp_onUio]
  refine Prog.wp_mono (Uio.uiomove_wp hcovers hresid hzeros) ?_ ?_ (fun _ h => h.elim)
  · rintro _ _ ⟨rfl, rfl⟩
    simp only [Uio.moving, hrw, wp_onFs, wp_lhResult, ↓Prog.wp_modify]
    split
    case isTrue hnext => exact herror hnext
    case isFalse hnext => exact hdone (Bool.eq_false_iff.mpr hnext)
  · rintro _ _ ⟨rfl, hmissing, rfl⟩
    exact hfault hmissing

theorem lhdSector_read {post : Unit → Io → Prop} {fails : Errno → Io → Prop}
    {bad : Fault → Prop} (hcovers : u.Covers) (hrw : u.uioRw = .UIO_READ)
    (hresid : 512 ≤ u.uioResid)
    (hfault : fs.nextError = false → ¬ u.Resident → fails .EFAULT ⟨fs.afterIo, u⟩)
    (herror : fs.nextError = true → fails .EIOERR ⟨fs.afterIo, u⟩)
    (hdone : fs.nextError = false →
      post () ⟨fs.afterIo, u.advance (fs.disk sector).list⟩) :
    Prog.wp (lhdSector sector) post fails bad ⟨fs, u⟩ := by
  simp only [lhdSector, ↓Prog.wp_bind, ↓Prog.wp_get, ↓Prog.wp_ite, hrw, wp_onFs, wp_onUio,
    wp_lhResult, ↓Prog.wp_pure]
  rw [if_neg (by decide)]
  split
  case isTrue hnext => exact herror hnext
  case isFalse hnext =>
      rw [Bool.not_eq_true] at hnext
      have hmove := Uio.uiomove_wp hcovers hresid (Record.length_list (fs.disk sector))
      refine Prog.wp_mono hmove ?_ ?_ (fun _ h => h.elim)
      · rintro _ _ ⟨-, rfl⟩
        have htake : (fs.disk sector).list.take 512 = (fs.disk sector).list :=
          List.take_of_length_le (Nat.le_of_eq (Record.length_list _))
        simp only [Uio.moving, hrw, htake]
        exact hdone hnext
      · rintro _ _ ⟨rfl, hmissing, rfl⟩
        exact hfault hnext hmissing

/-- A uio for one block of the disk. -/
structure AtBlock (u : Uio) (block : Nat) : Prop where
  covers : u.Covers
  offset : u.uioOffset = block * 512
  resid : u.uioResid = 512

theorem lhdIo_one {post : Unit → Io → Prop} {fails : Errno → Io → Prop} {bad : Fault → Prop}
    (hat : AtBlock u block) (hblock : block < fs.dBlocks)
    (hsector : Prog.wp (lhdSector block) post fails bad ⟨fs, u⟩) :
    Prog.wp lhdIo post fails bad ⟨fs, u⟩ := by
  simp only [lhdIo, ↓Prog.wp_bind, ↓Prog.wp_get, ↓Prog.wp_when, ↓Prog.wp_fail, hat.offset,
    hat.resid]
  rw [if_neg (by omega), if_neg (by omega)]
  simpa [Prog.forFrom] using hsector

/-- Nothing is left to transfer. -/
theorem lhdIo_none {post : Unit → Io → Prop} {fails : Errno → Io → Prop} {bad : Fault → Prop}
    (hoffset : u.uioOffset = sector * 512) (hresid : u.uioResid = 0)
    (hsector : sector ≤ fs.dBlocks) (hdone : post () ⟨fs, u⟩) :
    Prog.wp lhdIo post fails bad ⟨fs, u⟩ := by
  simp only [lhdIo, ↓Prog.wp_bind, ↓Prog.wp_get, ↓Prog.wp_when, ↓Prog.wp_fail, hoffset, hresid]
  rw [if_neg (by omega), if_neg (by omega)]
  simpa [Prog.forFrom] using hdone

/-- The file system after `sfs_wblock`.  After a failed write the uio is used up, so the
second try has nothing to transfer and succeeds. -/
def SfsFs.written (fs : SfsFs) (block : Nat) (data : Block) : SfsFs :=
  if fs.nextError = true then fs.afterIo else fs.afterIo.withBlock block data

/-- Only the disk and the device change. -/
theorem written_eq (fs : SfsFs) (block : Nat) (data : Block) :
    ∃ disk errors, fs.written block data = { fs with disk := disk, mediaErrors := errors } := by
  unfold SfsFs.written
  split
  · exact ⟨_, _, rfl⟩
  · exact ⟨_, _, rfl⟩

theorem sfsRwblock_write {post : Unit → Io → Prop} {fails : Errno → Io → Prop}
    {bad : Fault → Prop} (hat : AtBlock u block) (hrw : u.uioRw = .UIO_WRITE)
    (hblock : block < fs.dBlocks) (hfault : ¬ u.Resident → fails .EFAULT ⟨fs, u⟩)
    (hdone : post () ⟨fs.written block (Record.ofList (u.iov.take 512)),
      u.advance (u.iov.take 512)⟩) :
    Prog.wp sfsRwblock post fails bad ⟨fs, u⟩ := by
  have hbuffer := hat.covers.resid
  have hresid := hat.resid
  have hlength : (u.iov.take 512).length = 512 := List.length_take_of_le (by omega)
  have hadvanced := hat.covers.resid_advance (show (u.iov.take 512).length ≤ u.uioResid by omega)
  unfold SfsFs.written at hdone
  unfold sfsRwblock rwblockRetry
  simp only [↓Prog.wp_bind, ↓Prog.wp_attempt]
  apply lhdIo_one hat hblock
  apply lhdSector_write hat.covers hrw (by omega)
  · intro hmissing
    exact hfault hmissing
  · intro herror
    rw [if_pos herror] at hdone
    unfold rwblockRetry
    simp only [↓Prog.wp_bind, ↓Prog.wp_attempt]
    apply @lhdIo_none _ _ (block + 1)
    · show u.uioOffset + (u.iov.take 512).length = (block + 1) * 512
      rw [hlength, hat.offset]
      omega
    · omega
    · exact hblock
    · exact hdone
  · intro hnext
    rw [if_neg (by simp [hnext])] at hdone
    exact hdone

@[simp] theorem iov_sfsuio (data : Block) (block : Nat) (rw : UioRw) :
    (sfsuio data block rw).iov = data.list := by
  rw [sfsuio, Uio.mkKuio]

@[simp] theorem passed_sfsuio (data : Block) (block : Nat) (rw : UioRw) :
    (sfsuio data block rw).passed = [] := by
  rw [sfsuio, Uio.mkKuio]

@[simp] theorem resid_sfsuio (data : Block) (block : Nat) (rw : UioRw) :
    (sfsuio data block rw).uioResid = 512 := by
  simp only [sfsuio, Uio.mkKuio, Record.length_list]

theorem mkKuio_atBlock (data : Block) (block : Nat) (rw : UioRw) :
    AtBlock (sfsuio data block rw) block := by
  refine ⟨⟨?_, ?_⟩, rfl, resid_sfsuio data block rw⟩
  · simp only [resid_sfsuio, iov_sfsuio, Record.length_list, Nat.le_refl]
  · rw [resid_sfsuio]
    decide

theorem mkKuio_resident (data : Block) (block : Nat) (rw : UioRw) :
    (sfsuio data block rw).Resident := by
  intro reach hreach
  cases hreach

theorem wp_withKuio {post : Uio → SfsFs → Prop} {fails : Errno → SfsFs → Prop}
    {bad : Fault → Prop} (kuio : Uio) (body : IoOp Unit) :
    Prog.wp (withKuio kuio body) post fails bad fs ↔
      Prog.wp body (fun _ io => post io.uio io.fs) (fun code io => fails code io.fs) bad
        ⟨fs, kuio⟩ := by
  unfold Prog.wp withKuio
  cases body ⟨fs, kuio⟩ with
  | ok value io => rfl
  | error code io => rfl
  | panic reason => rfl

/-- `sfs_wblock` returns 0 whether or not the device took the block. -/
theorem wp_sfsWblock {post : Unit → SfsFs → Prop} {fails : Errno → SfsFs → Prop}
    {bad : Fault → Prop} (data : Block) (hblock : block < fs.dBlocks)
    (hdone : post () (fs.written block data)) :
    Prog.wp (sfsWblock data block) post fails bad fs := by
  have hlist : (data.list.take 512) = data.list :=
    List.take_of_length_le (Nat.le_of_eq (Record.length_list data))
  simp only [sfsWblock, ↓Prog.wp_bind, ↓Prog.wp_pure, wp_withKuio]
  apply sfsRwblock_write (mkKuio_atBlock data block _) rfl hblock
  · intro hmissing
    exact absurd (mkKuio_resident data block _) hmissing
  · rw [iov_sfsuio, hlist, Record.ofList_list]
    exact hdone

theorem sfsRwblock_read {post : Unit → Io → Prop} {fails : Errno → Io → Prop}
    {bad : Fault → Prop} (hat : AtBlock u block) (hrw : u.uioRw = .UIO_READ)
    (hblock : block < fs.dBlocks) (hquiet : fs.mediaErrors = [])
    (hfault : ¬ u.Resident → fails .EFAULT ⟨fs, u⟩)
    (hdone : post () ⟨fs, u.advance (fs.disk block).list⟩) :
    Prog.wp sfsRwblock post fails bad ⟨fs, u⟩ := by
  have hafter : fs.afterIo = fs := by
    cases fs
    cases hquiet
    rfl
  have hnext : fs.nextError = false := by
    simp [SfsFs.nextError, hquiet]
  unfold sfsRwblock rwblockRetry
  simp only [↓Prog.wp_bind, ↓Prog.wp_attempt]
  apply lhdIo_one hat hblock
  apply lhdSector_read hat.covers hrw (Nat.le_of_eq hat.resid.symm)
  · intro _ hmissing
    rw [hafter]
    exact hfault hmissing
  · intro herror
    rw [hnext] at herror
    cases herror
  · intro _
    rw [hafter]
    exact hdone

theorem wp_sfsRblock {post : Block → SfsFs → Prop} {fails : Errno → SfsFs → Prop}
    {bad : Fault → Prop} (data : Block) (hblock : block < fs.dBlocks)
    (hquiet : fs.mediaErrors = []) (hdone : post (fs.disk block) fs) :
    Prog.wp (sfsRblock data block) post fails bad fs := by
  simp only [sfsRblock, ↓Prog.wp_bind, ↓Prog.wp_pure, wp_withKuio]
  apply sfsRwblock_read (mkKuio_atBlock data block _) rfl hblock hquiet
  · intro hmissing
    exact absurd (mkKuio_resident data block _) hmissing
  · have hdrop : data.list.drop (fs.disk block).list.length = [] := by
      apply List.drop_of_length_le
      simp only [Record.length_list, Nat.le_refl]
    simp only [Uio.advance, iov_sfsuio, passed_sfsuio, hdrop, List.nil_append, List.append_nil,
      Record.ofList_list]
    exact hdone

end OS161.Sfs
