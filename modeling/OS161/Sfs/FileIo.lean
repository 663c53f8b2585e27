import OS161.Sfs.Mapping

namespace OS161.Sfs

open OS161.Data
open OS161.Kern
open OS161.Lib
open OS161.Vfs

/-! What `sfs_io` does to a file, as bytes. -/

variable {fs fs' fs'' : SfsFs} {live : Nat → Bool} {sv ino n b k : Nat} {u : Uio}
variable {io : Io} {data : List Byte}

/-! Bytes of a file. -/

theorem fileBytes_update (file : Nat → Block) (k : Nat) (data : Block) (pos : Nat) :
    fileBytes (Function.update file k data) pos =
      if pos / 512 = k then data.bytes (pos % 512) else fileBytes file pos := by
  unfold fileBytes
  split
  case isTrue hin => rw [hin, Function.update_self]
  case isFalse hout => rw [Function.update_of_ne hout]

/-- Bytes replaced inside one block. -/
theorem fileBytes_splice (file : Nat → Block) {skip : Nat} (hskip : skip + data.length ≤ 512) :
    fileBytes (Function.update file k (Record.ofBytes ((file k).bytes.splice skip data))) =
      (fileBytes file).splice (k * 512 + skip) data := by
  funext pos
  rw [fileBytes_update]
  by_cases hin : pos / 512 = k
  · rw [if_pos hin, Record.bytes_ofBytes (Nat.mod_lt _ (by decide))]
    have hbyte : (file k).bytes (pos % 512) = fileBytes file pos := by
      rw [fileBytes, hin]
    have hpos : pos % 512 + k * 512 = pos := by omega
    unfold Bytes.splice
    rw [hbyte]
    by_cases hle : skip ≤ pos % 512
    · rw [if_pos hle, if_pos (by omega), show pos - (k * 512 + skip) = pos % 512 - skip by omega]
    · rw [if_neg hle, if_neg (by omega)]
  · rw [if_neg hin]
    by_cases hlow : pos < k * 512 + skip
    · rw [Bytes.splice_of_lt hlow]
    · rw [Bytes.splice_of_ge (by omega)]

/-- A whole block replaced. -/
theorem fileBytes_block (file : Nat → Block) (hdata : data.length = 512) :
    fileBytes (Function.update file k (Record.ofList data)) =
      (fileBytes file).splice (k * 512) data := by
  have hsplice := fileBytes_splice (k := k) file (show 0 + data.length ≤ 512 by omega)
  rw [Nat.add_zero] at hsplice
  rw [← hsplice]
  congr 2
  funext i
  rw [Record.ofBytes, Record.ofList, Bytes.splice_of_mem (Nat.zero_le _) (by omega), Nat.sub_zero]

/-- Bytes from `pos` on were replaced in the file of `sv`, and nothing else changed. -/
structure Spliced (n : Nat) (live : Nat → Bool) (sv ino : Nat) (fs : SfsFs) (pos : Nat)
    (data : List Byte) (fs' : SfsFs) : Prop where
  files : Files n live fs'
  only : OnlyFile live sv fs fs'
  bytes : fileBytes (fs'.file ino) = (fileBytes (fs.file ino)).splice pos data
  size : fs'.size sv = fs.size sv

theorem Leaves.spliced_nil (hleaves : Leaves n live sv ino fs (fs.file ino) (fs.size sv) fs')
    (pos : Nat) : Spliced n live sv ino fs pos [] fs' := by
  refine ⟨hleaves.files, hleaves.only, ?_, hleaves.size⟩
  rw [hleaves.file, Bytes.splice_nil]

theorem Spliced.trans {data' : List Byte} (hfirst : Spliced n live sv ino fs pos data fs')
    (hsecond : Spliced n live sv ino fs' (pos + data.length) data' fs'') :
    Spliced n live sv ino fs pos (data ++ data') fs'' := by
  refine ⟨hsecond.files, hfirst.only.trans hsecond.only hfirst.files.dead, ?_,
    hsecond.size.trans hfirst.size⟩
  rw [hsecond.bytes, hfirst.bytes, Bytes.splice_append]

/-- The first `m` bytes of the buffer are in the file. -/
structure Progress (n : Nat) (live : Nat → Bool) (sv ino : Nat) (fs : SfsFs) (u : Uio) (m : Nat)
    (io : Io) : Prop where
  fits : m ≤ u.uioResid
  bound : 0 < m → u.uioOffset + m ≤ 143 * 512
  uio : io.uio = u.advance (u.iov.take m)
  spliced : Spliced n live sv ino fs u.uioOffset (u.iov.take m) io.fs

/-- Why the transfer at `pos` fails. -/
inductive Refused (u : Uio) (m : Nat) : Errno → Prop where
  | full : Refused u m .ENOSPC
  | past (hpast : 143 ≤ (u.uioOffset + m) / 512)
      (hrest : m < u.uioResid ∨ (u.uioOffset + m) % 512 ≠ 0) : Refused u m .EINVAL
  | fault (hfault : ¬ u.Resident) : Refused u m .EFAULT

theorem length_take_iov (hcovers : u.Covers) (hm : m ≤ u.uioResid) :
    (u.iov.take m).length = m := by
  have hbuffer := hcovers.resid
  exact List.length_take_of_le (by omega)

theorem Progress.none (hcovers : u.Covers)
    (hleaves : Leaves n live sv ino fs (fs.file ino) (fs.size sv) fs') :
    Progress n live sv ino fs u 0 ⟨fs', u⟩ := by
  refine ⟨Nat.zero_le _, fun hpos => absurd hpos (by omega), ?_, hleaves.spliced_nil _⟩
  rw [List.take_zero, Uio.advance_nil hcovers]

section Advance

variable (hcovers : u.Covers) (hm : m ≤ u.uioResid)

include hcovers hm

theorem offset_advance : (u.advance (u.iov.take m)).uioOffset = u.uioOffset + m := by
  rw [Uio.advance, length_take_iov hcovers hm]

theorem resid_advance : (u.advance (u.iov.take m)).uioResid = u.uioResid - m := by
  have hlength := length_take_iov hcovers hm
  rw [hcovers.resid_advance (by omega), hlength]

theorem covers_advance : (u.advance (u.iov.take m)).Covers := by
  have hlength := length_take_iov hcovers hm
  exact hcovers.advance (by omega)

theorem resident_advance (hresident : u.Resident) : (u.advance (u.iov.take m)).Resident := by
  have hlength := length_take_iov hcovers hm
  exact hresident.advance hcovers (by omega)

theorem take_advance (m' : Nat) :
    u.iov.take m ++ (u.advance (u.iov.take m)).iov.take m' = u.iov.take (m + m') := by
  rw [Uio.advance, length_take_iov hcovers hm, List.take_add]

end Advance

/-- More of the buffer is written. -/
theorem Progress.more (hprogress : Progress n live sv ino fs u m io) (hcovers : u.Covers)
    {io' : Io} (hmore : Progress n live sv ino io.fs io.uio m' io') :
    Progress n live sv ino fs u (m + m') io' := by
  have hm := hprogress.fits
  have hfits := hmore.fits
  have huio := hmore.uio
  have hspliced := hmore.spliced
  have hbound := hprogress.bound
  have hbound' := hmore.bound
  rw [hprogress.uio] at hfits huio hspliced hbound'
  rw [resid_advance hcovers hm] at hfits
  rw [offset_advance hcovers hm] at hspliced hbound'
  refine ⟨by omega, fun _ => by omega, ?_, ?_⟩
  · rw [huio, ← take_advance hcovers hm]
    apply Uio.advance_append hcovers
    rw [← List.length_append, take_advance hcovers hm, length_take_iov hcovers (by omega)]
    omega
  · rw [← take_advance hcovers hm]
    refine hprogress.spliced.trans ?_
    rw [length_take_iov hcovers hm]
    exact hspliced

theorem Refused.more (hprogress : Progress n live sv ino fs u m io) (hcovers : u.Covers)
    {code : Errno} (hrefused : Refused io.uio m' code) : Refused u (m + m') code := by
  have hm := hprogress.fits
  rw [hprogress.uio] at hrefused
  cases hrefused with
  | full => exact .full
  | past hpast hrest =>
      rw [offset_advance hcovers hm] at hpast hrest
      rw [resid_advance hcovers hm] at hrest
      rw [Nat.add_assoc] at hpast hrest
      exact .past hpast (by omega)
  | fault hfault =>
      refine .fault ?_
      intro hresident
      exact hfault (resident_advance hcovers hm hresident)

/-! Writing. -/

/-- The call writes `m` bytes of the buffer, or stops before that with an error code. -/
def Writes (n : Nat) (live : Nat → Bool) (sv ino : Nat) (body : IoOp Unit) (m : Nat) (io : Io) :
    Prop :=
  Prog.wp body (fun _ io' => Progress n live sv ino io.fs io.uio m io')
    (fun code io' => ∃ m', Progress n live sv ino io.fs io.uio m' io' ∧ Refused io.uio m' code)
    (fun _ => False) io

/-- Why the transfer of one block fails, and the free map after it. -/
inductive Stuck (fs : SfsFs) (ino : Nat) (u : Uio) : Errno → Bitmap → Prop where
  | full {freemap : Bitmap} (hinside : u.uioOffset / 512 < 143)
      (hhole : fs.blockAt ino (.data (u.uioOffset / 512)) = 0)
      (hspace : NoSpace fs ino (u.uioOffset / 512) freemap) : Stuck fs ino u .ENOSPC freemap
  | past (hpast : 143 ≤ u.uioOffset / 512) : Stuck fs ino u .EINVAL fs.sfsFreemap
  | fault {freemap : Bitmap} (hfault : ¬ u.Resident) : Stuck fs ino u .EFAULT freemap

theorem Stuck.refused {code : Errno} {freemap : Bitmap} (hstuck : Stuck fs ino u code freemap)
    (hsome : 0 < u.uioResid ∨ u.uioOffset % 512 ≠ 0) : Refused u 0 code := by
  cases hstuck with
  | full => exact .full
  | past hpast => exact .past hpast hsome
  | fault hfault => exact .fault hfault

/-- There are blocks enough for the place the uio is at. -/
abbrev Room (fs : SfsFs) (ino : Nat) (u : Uio) : Prop :=
  fs.lacks ino (u.uioOffset / 512) ≤ fs.freeBlocks

/-- The call writes `m` bytes of the buffer or nothing. -/
def WritesOnce (n : Nat) (live : Nat → Bool) (sv ino : Nat) (body : IoOp Unit) (m : Nat)
    (io : Io) : Prop :=
  Prog.wp body (fun _ io' => Progress n live sv ino io.fs io.uio m io' ∧ Room io.fs ino io.uio)
    (fun code io' => Progress n live sv ino io.fs io.uio 0 io' ∧
      Stuck io.fs ino io.uio code io'.fs.sfsFreemap)
    (fun _ => False) io

theorem WritesOnce.writes {body : IoOp Unit} (honce : WritesOnce n live sv ino body m ⟨fs, u⟩)
    (hsome : 0 < u.uioResid ∨ u.uioOffset % 512 ≠ 0) :
    Writes n live sv ino body m ⟨fs, u⟩ := by
  refine Prog.wp_mono honce (fun _ _ hdone => hdone.1) ?_ (fun _ hbad => hbad)
  intro code io' ⟨hnone, hstuck⟩
  exact ⟨0, hnone, hstuck.refused hsome⟩

/-- A block is found for a write, and the transfer goes on with it. -/
theorem Files.forWrite {post : Nat → Io → Prop} {fails : Errno → Io → Prop} {bad : Fault → Prop}
    (h : Files n live fs) (hloaded : Loaded fs sv ino) (hcovers : u.Covers)
    (hfails : ∀ code fs', Progress n live sv ino fs u 0 ⟨fs', u⟩ →
      Stuck fs ino u code fs'.sfsFreemap → fails code ⟨fs', u⟩)
    (hdone : ∀ b fs', u.uioOffset / 512 < 143 →
      Mapped n live sv ino (u.uioOffset / 512) fs b fs' → post b ⟨fs', u⟩) :
    Prog.wp (onFs (sfsBmap sv (u.uioOffset / 512) true)) post fails bad ⟨fs, u⟩ := by
  rw [wp_onFs]
  by_cases hk : u.uioOffset / 512 < 143
  · refine Prog.wp_mono (sfsBmap_write h hloaded hk) (fun b fs' => hdone b fs' hk) ?_
      (fun _ hbad => hbad.elim)
    intro code fs' hfull
    obtain rfl := hfull.code
    exact hfails _ _ (.none hcovers hfull.leaves) (.full hk hfull.hole hfull.space)
  · refine sfsBmap_past (by omega) true ?_
    exact hfails _ _ (.none hcovers (.refl h sv ino)) (.past (by omega))

theorem Mapped.on_device (hmapped : Mapped n live sv ino k fs b fs') (hlive : live ino = true) :
    b < fs'.dBlocks :=
  hmapped.leaves.files.on_device hlive hmapped.block hmapped.mapped

theorem Mapped.disk (hmapped : Mapped n live sv ino k fs b fs') : fs'.disk b = fs.file ino k := by
  rw [← hmapped.leaves.file, SfsFs.file, fileBlock]
  have hblock : dataBlock fs'.disk (fs'.inode ino) k = b := hmapped.block
  rw [hblock, if_neg hmapped.mapped]

/-- The block is written. -/
theorem Mapped.write (hmapped : Mapped n live sv ino k fs b fs') (hloaded : Loaded fs sv ino)
    (block : Block) {pos : Nat}
    (hbytes : fileBytes (Function.update (fs.file ino) k block) =
      (fileBytes (fs.file ino)).splice pos data) :
    Spliced n live sv ino fs pos data (fs'.withBlock b block) := by
  have hleaves := hmapped.leaves
  have hwrite := hleaves.files.write (hloaded.only hleaves.only) hmapped.block hmapped.mapped block
  have hboth := hleaves.trans hwrite
  refine ⟨hboth.files, hboth.only, ?_, ?_⟩
  · rw [hboth.file, hleaves.file, hbytes]
  · rw [hboth.size, hleaves.size]

theorem sfsPartialio_write (h : Files n live fs) (hloaded : Loaded fs sv ino)
    (hcovers : u.Covers) (hrw : u.uioRw = .UIO_WRITE) (hlen : len ≤ u.uioResid)
    (hspan : u.uioOffset % 512 + len ≤ 512) :
    WritesOnce n live sv ino (sfsPartialio sv (u.uioOffset % 512) len) len ⟨fs, u⟩ := by
  have hlive := hloaded.alive h
  have hlength := length_take_iov hcovers hlen
  unfold WritesOnce
  simp only [sfsPartialio, ↓Prog.wp_bind, ↓Prog.wp_get, ↓Prog.wp_assert, hrw, decide_true]
  rw [if_pos hspan]
  refine h.forWrite hloaded hcovers (fun code fs' hnone hcode => ⟨hnone, hcode⟩) ?_
  intro b fs' hk hmapped
  simp only [partialioFill, ↓Prog.wp_bind, ↓Prog.wp_get, ↓Prog.wp_ite]
  rw [if_neg hmapped.mapped, wp_onFs]
  refine wp_sfsRblock _ (hmapped.on_device hlive) hmapped.leaves.files.quiet ?_
  rw [wp_onUio]
  have hmove := Uio.uiomove_wp hcovers hlen
    (Bytes.length_slice (fs'.disk b).bytes (u.uioOffset % 512) len)
  refine Prog.wp_mono hmove ?_ ?_ (fun _ hbad => hbad)
  · rintro moved u' ⟨hmoved, hu'⟩
    rw [Uio.moving, hrw] at hmoved hu'
    simp only at hmoved hu'
    subst hmoved hu'
    rw [Prog.wp_when, if_pos hrw, wp_onFs]
    refine wp_sfsWblock _ (hmapped.on_device hlive) ?_
    rw [written_of_quiet hmapped.leaves.files.quiet]
    refine ⟨⟨hlen, fun _ => by omega, rfl, hmapped.write hloaded _ ?_⟩, hmapped.room⟩
    rw [hmapped.disk, fileBytes_splice _ (by omega), Nat.div_add_mod']
  · rintro code u' ⟨hcode, hmissing, hu'⟩
    subst hcode hu'
    exact ⟨.none hcovers hmapped.leaves, .fault hmissing⟩

/-! Whole blocks. -/

/-- The uio that `sfs_blockio` hands to the device. -/
def blockUio (u : Uio) (b : Nat) : Uio := { u with uioOffset := b * 512, uioResid := 512 }

theorem blockUio_atBlock (hcovers : u.Covers) (hresid : 512 ≤ u.uioResid) (b : Nat) :
    AtBlock (blockUio u b) b := by
  have hbuffer := hcovers.resid
  refine ⟨⟨?_, ?_⟩, rfl, rfl⟩
  · show 512 ≤ u.iov.length
    omega
  · show 512 < 2 ^ 32
    decide

theorem blockioDevice_wp (hcovers : u.Covers) (hresid : 512 ≤ u.uioResid)
    (hdata : data.length = 512)
    (hrwblock : Prog.wp sfsRwblock (fun _ io => io = ⟨fs', (blockUio u b).advance data⟩)
      (fun code io => code = .EFAULT ∧ ¬ (blockUio u b).Resident ∧ io = ⟨fs, blockUio u b⟩)
      (fun _ => False) ⟨fs, blockUio u b⟩) :
    Prog.wp (blockioDevice b) (fun _ io => io = ⟨fs', u.advance data⟩)
      (fun code io => code = .EFAULT ∧ ¬ u.Resident ∧ io = ⟨fs, u⟩) (fun _ => False)
      ⟨fs, u⟩ := by
  have hword := hcovers.word
  simp only [blockioDevice, ↓Prog.wp_bind, ↓Prog.wp_get, ↓Prog.wp_assert, setUio,
    ↓Prog.wp_modify, ↓Prog.wp_attempt]
  rw [if_pos hresid]
  refine Prog.wp_mono hrwblock ?_ ?_ (fun _ hbad => hbad)
  · intro _ io hio
    subst hio
    simp only [↓Prog.wp_pure, blockUio, Uio.advance, hdata]
    have hoffset : b * 512 + 512 - b * 512 + u.uioOffset = u.uioOffset + 512 := by omega
    have hleft : ((512 + 2 ^ 32 - 512) % 2 ^ 32 + 2 ^ 32 - 512 + u.uioResid) % 2 ^ 32 =
        (u.uioResid + 2 ^ 32 - 512) % 2 ^ 32 := by omega
    rw [hoffset, hleft]
  · rintro code io ⟨hcode, hmissing, hio⟩
    subst hcode hio
    simp only [↓Prog.wp_fail, blockUio]
    have hoffset : b * 512 - b * 512 + u.uioOffset = u.uioOffset := by omega
    have hleft : (512 + 2 ^ 32 - 512 + u.uioResid) % 2 ^ 32 = u.uioResid := by omega
    refine ⟨trivial, ?_, by rw [hoffset, hleft]⟩
    intro hresident
    apply hmissing
    intro reach hreach
    have hall := hresident reach hreach
    show 512 ≤ reach
    omega

theorem sfsBlockio_write (h : Files n live fs) (hloaded : Loaded fs sv ino)
    (hcovers : u.Covers) (hrw : u.uioRw = .UIO_WRITE) (hresid : 512 ≤ u.uioResid)
    (haligned : u.uioOffset % 512 = 0) :
    WritesOnce n live sv ino (sfsBlockio sv) 512 ⟨fs, u⟩ := by
  have hlive := hloaded.alive h
  have hlength := length_take_iov hcovers hresid
  unfold WritesOnce
  simp only [sfsBlockio, ↓Prog.wp_bind, ↓Prog.wp_get, hrw, decide_true]
  refine h.forWrite hloaded hcovers (fun code fs' hnone hcode => ⟨hnone, hcode⟩) ?_
  intro b fs' hk hmapped
  rw [Prog.wp_ite, if_neg hmapped.mapped]
  have hquiet := hmapped.leaves.files.quiet
  have hdevice := @blockioDevice_wp fs' (fs'.withBlock b (Record.ofList (u.iov.take 512))) b u
    (u.iov.take 512) hcovers hresid hlength ?_
  · refine Prog.wp_mono hdevice ?_ ?_ (fun _ hbad => hbad)
    · intro _ io hio
      subst hio
      refine ⟨⟨hresid, fun _ => by omega, rfl, hmapped.write hloaded _ ?_⟩, hmapped.room⟩
      rw [fileBytes_block _ hlength, show u.uioOffset / 512 * 512 = u.uioOffset by omega]
    · rintro code io ⟨hcode, hmissing, hio⟩
      subst hcode hio
      exact ⟨.none hcovers hmapped.leaves, .fault hmissing⟩
  · apply sfsRwblock_write (blockUio_atBlock hcovers hresid b) hrw (hmapped.on_device hlive)
    · intro hmissing
      exact ⟨rfl, hmissing, rfl⟩
    · rw [written_of_quiet hquiet]
      rfl

/-! The parts of `sfs_io`. -/

theorem Progress.covers (hprogress : Progress n live sv ino fs u m io) (hcovers : u.Covers) :
    io.uio.Covers := by
  rw [hprogress.uio]
  exact covers_advance hcovers hprogress.fits

theorem Progress.rw (hprogress : Progress n live sv ino fs u m io) :
    io.uio.uioRw = u.uioRw := by
  rw [hprogress.uio]
  rfl

theorem Progress.offset (hprogress : Progress n live sv ino fs u m io) (hcovers : u.Covers) :
    io.uio.uioOffset = u.uioOffset + m := by
  rw [hprogress.uio]
  exact offset_advance hcovers hprogress.fits

theorem Progress.resid (hprogress : Progress n live sv ino fs u m io) (hcovers : u.Covers) :
    io.uio.uioResid = u.uioResid - m := by
  rw [hprogress.uio]
  exact resid_advance hcovers hprogress.fits

/-- One part of a transfer after another. -/
theorem Writes.bind {first : IoOp Unit} {rest : Unit → IoOp Unit}
    (hfirst : Writes n live sv ino first m ⟨fs, u⟩) (hcovers : u.Covers)
    (hrest : ∀ io, Progress n live sv ino fs u m io → Writes n live sv ino (rest ()) m' io) :
    Writes n live sv ino (first >>= rest) (m + m') ⟨fs, u⟩ := by
  unfold Writes
  rw [Prog.wp_bind]
  refine Prog.wp_mono hfirst ?_ (fun _ _ hfails => hfails) (fun _ hbad => hbad)
  intro _ io hprogress
  refine Prog.wp_mono (hrest io hprogress) ?_ ?_ (fun _ hbad => hbad)
  · intro _ io' hmore
    exact hprogress.more hcovers hmore
  · intro code io' ⟨m'', hmore, hcode⟩
    exact ⟨m + m'', hprogress.more hcovers hmore, .more hprogress hcovers hcode⟩

theorem Writes.none (h : Files n live fs) (hcovers : u.Covers) :
    Writes n live sv ino (pure ()) 0 ⟨fs, u⟩ :=
  Progress.none hcovers (.refl h sv ino)

theorem sfsBlockios_write (h : Files n live fs) (hloaded : Loaded fs sv ino)
    (hcovers : u.Covers) (hrw : u.uioRw = .UIO_WRITE) (hresid : 512 * count ≤ u.uioResid)
    (haligned : u.uioOffset % 512 = 0) (start : Nat) :
    Writes n live sv ino (Prog.forFrom (fun _ _ => sfsBlockio sv) count start ()) (512 * count)
      ⟨fs, u⟩ := by
  induction count generalizing fs u start with
  | zero => exact .none h hcovers
  | succ count ih =>
      rw [show 512 * (count + 1) = 512 + 512 * count by omega]
      have hfirst := sfsBlockio_write h hloaded hcovers hrw (by omega) haligned
      refine Writes.bind (hfirst.writes (Or.inl (by omega))) hcovers ?_
      intro io hprogress
      have hleft := hprogress.resid hcovers
      have hoffset := hprogress.offset hcovers
      exact ih hprogress.spliced.files (hloaded.only hprogress.spliced.only)
        (hprogress.covers hcovers) (hprogress.rw.trans hrw) (by omega) (by omega) (start + 1)

theorem sfsIoTail_write (h : Files n live fs) (hloaded : Loaded fs sv ino)
    (hcovers : u.Covers) (hrw : u.uioRw = .UIO_WRITE) (hresid : u.uioResid < 512)
    (haligned : u.uioOffset % 512 = 0) :
    Writes n live sv ino (sfsIoTail sv) u.uioResid ⟨fs, u⟩ := by
  unfold Writes
  simp only [sfsIoTail, ↓Prog.wp_bind, ↓Prog.wp_get, ↓Prog.wp_assert]
  rw [if_pos hresid, Prog.wp_when]
  split
  case isTrue hsome =>
      have hpart := sfsPartialio_write h hloaded hcovers hrw (Nat.le_refl _) (by omega)
      rw [haligned] at hpart
      exact hpart.writes (Or.inl hsome)
  case isFalse hnone =>
      rw [show u.uioResid = 0 by omega]
      exact .none hcovers (.refl h sv ino)

theorem sfsIoBlocks_write (h : Files n live fs) (hloaded : Loaded fs sv ino)
    (hcovers : u.Covers) (hrw : u.uioRw = .UIO_WRITE)
    (haligned : u.uioResid ≠ 0 → u.uioOffset % 512 = 0) :
    Writes n live sv ino (sfsIoBlocks sv) u.uioResid ⟨fs, u⟩ := by
  unfold Writes
  simp only [sfsIoBlocks, ↓Prog.wp_bind, ↓Prog.wp_get]
  rw [Prog.wp_when]
  split
  case isFalse hnone =>
      rw [show u.uioResid = 0 by omega]
      exact .none hcovers (.refl h sv ino)
  case isTrue hsome =>
      have hsplit : u.uioResid = 512 * (u.uioResid / 512) + u.uioResid % 512 := by omega
      have hboth : Writes n live sv ino
          (Prog.forFrom (fun _ _ => sfsBlockio sv) (u.uioResid / 512) 0 () >>= fun _ =>
            sfsIoTail sv) (512 * (u.uioResid / 512) + u.uioResid % 512) ⟨fs, u⟩ := by
        refine Writes.bind (sfsBlockios_write h hloaded hcovers hrw (by omega) (haligned hsome) 0)
          hcovers ?_
        intro io hprogress
        have hleft := hprogress.resid hcovers
        have hoffset := hprogress.offset hcovers
        have haligned := haligned hsome
        have htail := sfsIoTail_write hprogress.spliced.files
          (hloaded.only hprogress.spliced.only) (hprogress.covers hcovers)
          (hprogress.rw.trans hrw) (by omega) (by omega)
        rw [show io.uio.uioResid = u.uioResid % 512 by omega] at htail
        exact htail
      rw [← hsplit] at hboth
      simp only [↓Prog.wp_bind, ↓Prog.wp_assert]
      rw [if_pos (haligned hsome)]
      unfold Writes at hboth
      rw [Prog.wp_bind] at hboth
      exact hboth

theorem sfsIoBody_write (h : Files n live fs) (hloaded : Loaded fs sv ino)
    (hcovers : u.Covers) (hrw : u.uioRw = .UIO_WRITE) :
    Writes n live sv ino (sfsIoBody sv) u.uioResid ⟨fs, u⟩ := by
  by_cases haligned : u.uioOffset % 512 = 0
  · unfold Writes
    simp only [sfsIoBody, ↓Prog.wp_bind, ↓Prog.wp_get, ↓Prog.wp_when, haligned, ne_eq, not_true,
      if_false]
    exact sfsIoBlocks_write h hloaded hcovers hrw (fun _ => haligned)
  · have hsplit : u.uioResid = min (512 - u.uioOffset % 512) u.uioResid +
        (u.uioResid - min (512 - u.uioOffset % 512) u.uioResid) := by omega
    have hboth : Writes n live sv ino
        (sfsPartialio sv (u.uioOffset % 512) (min (512 - u.uioOffset % 512) u.uioResid) >>=
          fun _ => sfsIoBlocks sv) (min (512 - u.uioOffset % 512) u.uioResid +
            (u.uioResid - min (512 - u.uioOffset % 512) u.uioResid)) ⟨fs, u⟩ := by
      have hpart := sfsPartialio_write h hloaded hcovers hrw
        (show min (512 - u.uioOffset % 512) u.uioResid ≤ u.uioResid by omega) (by omega)
      refine Writes.bind (hpart.writes (Or.inr haligned)) hcovers ?_
      intro io hprogress
      have hleft := hprogress.resid hcovers
      have hoffset := hprogress.offset hcovers
      have hblocks := sfsIoBlocks_write hprogress.spliced.files
        (hloaded.only hprogress.spliced.only) (hprogress.covers hcovers)
        (hprogress.rw.trans hrw) (fun _ => by omega)
      rw [hleft] at hblocks
      exact hblocks
    rw [← hsplit] at hboth
    unfold Writes at hboth ⊢
    simp only [sfsIoBody, ↓Prog.wp_bind, ↓Prog.wp_get, ↓Prog.wp_when]
    rw [if_pos haligned]
    rw [Prog.wp_bind] at hboth
    exact hboth

/-- A transfer inside one block. -/
theorem sfsIoBody_within (h : Files n live fs) (hloaded : Loaded fs sv ino)
    (hcovers : u.Covers) (hrw : u.uioRw = .UIO_WRITE) (hsome : 0 < u.uioResid)
    (hspan : u.uioOffset % 512 + u.uioResid ≤ 512) (hshort : u.uioResid < 512) :
    WritesOnce n live sv ino (sfsIoBody sv) u.uioResid ⟨fs, u⟩ := by
  have hpart := sfsPartialio_write h hloaded hcovers hrw (Nat.le_refl _) (by omega)
  unfold WritesOnce at hpart ⊢
  by_cases haligned : u.uioOffset % 512 = 0
  · simp only [sfsIoBody, sfsIoBlocks, sfsIoTail, ↓Prog.wp_bind, ↓Prog.wp_get, ↓Prog.wp_when,
      ↓Prog.wp_assert, haligned, ne_eq, not_true, if_false, if_true]
    rw [if_pos (by omega), show u.uioResid / 512 = 0 by omega]
    simp only [Prog.forFrom, ↓Prog.wp_ret]
    rw [if_pos (by omega), if_pos hsome]
    rw [haligned] at hpart
    exact hpart
  · simp only [sfsIoBody, ↓Prog.wp_bind, ↓Prog.wp_get, ↓Prog.wp_when]
    rw [if_pos haligned, show min (512 - u.uioOffset % 512) u.uioResid = u.uioResid by omega]
    refine Prog.wp_mono hpart ?_ (fun _ _ hfails => hfails) (fun _ hbad => hbad)
    intro _ io ⟨hprogress, hroom⟩
    have hleft : io.uio.uioResid = u.uioResid - u.uioResid := hprogress.resid hcovers
    simp only [sfsIoBlocks, ↓Prog.wp_bind, ↓Prog.wp_get, ↓Prog.wp_when]
    rw [if_neg (by omega)]
    exact ⟨hprogress, hroom⟩

/-! `sfs_io` for writing. -/

/-- The length of a file once the offset of a write has come to `pos`. -/
def grown (size pos : Nat) : Nat := if offT size < pos then pos else size

/-- What `sfs_io` leaves when it has written `m` bytes of the buffer. -/
structure Stored (n : Nat) (live : Nat → Bool) (sv ino : Nat) (fs : SfsFs) (u : Uio) (m : Nat)
    (io : Io) : Prop where
  fits : m ≤ u.uioResid
  bound : 0 < m → u.uioOffset + m ≤ 143 * 512
  uio : io.uio = u.advance (u.iov.take m)
  files : Files n live io.fs
  only : OnlyFile live sv fs io.fs
  bytes : fileBytes (io.fs.file ino) =
    (fileBytes (fs.file ino)).splice u.uioOffset (u.iov.take m)
  size : io.fs.size sv = grown (fs.size sv) (u.uioOffset + m)

theorem wp_setUio_same {post : Unit → Io → Prop} {fails : Errno → Io → Prop}
    {bad : Fault → Prop} (hword : u.uioResid < 2 ^ 32) (hdone : post () ⟨fs, u⟩) :
    Prog.wp (setUio u.uioOffset ((u.uioResid + 0) % 2 ^ 32)) post fails bad ⟨fs, u⟩ := by
  rw [Nat.add_zero, Nat.mod_eq_of_lt hword]
  exact hdone

/-- The end of the call, once the length is known. -/
theorem sfsIoOut_end {result : Except Errno Unit} (hstored : Stored n live sv ino fs u m io)
    (hfreemap : io.fs.sfsFreemap = freemap) :
    Prog.wp (match result with
      | .ok _ => pure ()
      | .error code => Prog.fail code : IoOp Unit)
      (fun _ io' => result = .ok () ∧ Stored n live sv ino fs u m io')
      (fun code io' => result = .error code ∧ Stored n live sv ino fs u m io' ∧
        io'.fs.sfsFreemap = freemap)
      (fun _ => False) io := by
  cases result with
  | ok value => exact ⟨rfl, hstored⟩
  | error code => exact ⟨rfl, hstored, hfreemap⟩

/-- The length is adjusted after the transfer. -/
theorem sfsIoOut_write {result : Except Errno Unit}
    (hprogress : Progress n live sv ino fs u m io) (hloaded : Loaded fs sv ino)
    (hcovers : u.Covers) (hrw : u.uioRw = .UIO_WRITE) (hoffset : u.uioOffset < 2 ^ 32) :
    Prog.wp (sfsIoOut sv 0 result)
      (fun _ io' => result = .ok () ∧ Stored n live sv ino fs u m io')
      (fun code io' => result = .error code ∧ Stored n live sv ino fs u m io' ∧
        io'.fs.sfsFreemap = io.fs.sfsFreemap)
      (fun _ => False) io := by
  have hspliced := hprogress.spliced
  have hword := (hprogress.covers hcovers).word
  have hend := hprogress.offset hcovers
  have hbound := hprogress.bound
  have hsize : (io.fs.vnode sv).svI.get sfiSize = fs.size sv := hspliced.size
  simp only [sfsIoOut, ↓Prog.wp_bind, ↓Prog.wp_get, ↓Prog.wp_when, wp_onFs, wp_setInode]
  rw [hsize]
  by_cases hgrows : offT (fs.size sv) < io.uio.uioOffset
  · rw [if_pos ⟨hprogress.rw.trans hrw, hgrows⟩]
    have hresize := hspliced.files.resize (x := io.uio.uioOffset)
      (hloaded.only hspliced.only) (by omega)
    refine wp_setUio_same hword (sfsIoOut_end ?_ rfl)
    refine ⟨hprogress.fits, hbound, hprogress.uio, hresize.files,
      hspliced.only.trans hresize.only hspliced.files.dead, ?_, ?_⟩
    · rw [hresize.file, hspliced.bytes]
    · rw [hresize.size, grown, ← hend, if_pos hgrows]
  · rw [if_neg (fun hboth => hgrows hboth.2)]
    refine wp_setUio_same hword (sfsIoOut_end ?_ rfl)
    refine ⟨hprogress.fits, hbound, hprogress.uio, hspliced.files, hspliced.only,
      hspliced.bytes, ?_⟩
    rw [hspliced.size, grown, ← hend, if_neg hgrows]

/-- What the transfer achieved is there when `sfs_io` is done. -/
theorem sfsIo_of_body {done : Prop} {why : Nat → Errno → Bitmap → Prop} (hloaded : Loaded fs sv ino)
    (hcovers : u.Covers) (hrw : u.uioRw = .UIO_WRITE) (hoffset : u.uioOffset < 2 ^ 32)
    (hbody : Prog.wp (sfsIoBody sv) (fun _ io => Progress n live sv ino fs u m io ∧ done)
      (fun code io => ∃ m', Progress n live sv ino fs u m' io ∧ why m' code io.fs.sfsFreemap)
      (fun _ => False) ⟨fs, u⟩) :
    Prog.wp (sfsIo sv) (fun _ io => Stored n live sv ino fs u m io ∧ done)
      (fun code io => ∃ m', Stored n live sv ino fs u m' io ∧ why m' code io.fs.sfsFreemap)
      (fun _ => False) ⟨fs, u⟩ := by
  simp only [sfsIo, ↓Prog.wp_bind, ↓Prog.wp_get, ↓Prog.wp_ite, hrw]
  rw [if_neg (by simp), if_neg (by simp)]
  simp only [↓Prog.wp_attempt]
  refine Prog.wp_mono hbody ?_ ?_ (fun _ hbad => hbad)
  · rintro _ io ⟨hprogress, hdone⟩
    refine Prog.wp_mono (sfsIoOut_write hprogress hloaded hcovers hrw hoffset) ?_ ?_
      (fun _ hbad => hbad)
    · rintro _ io' ⟨_, hstored⟩
      exact ⟨hstored, hdone⟩
    · rintro code io' ⟨hresult, _⟩
      cases hresult
  · rintro code io ⟨m', hprogress, hcode⟩
    refine Prog.wp_mono (sfsIoOut_write hprogress hloaded hcovers hrw hoffset) ?_ ?_
      (fun _ hbad => hbad)
    · rintro _ io' ⟨hresult, _⟩
      cases hresult
    · rintro code' io' ⟨hresult, hstored, hfreemap⟩
      cases hresult
      rw [← hfreemap] at hcode
      exact ⟨m', hstored, hcode⟩

/-- A write stores the buffer in the file, or a part of it before it fails. -/
theorem sfsIo_write (h : Files n live fs) (hloaded : Loaded fs sv ino) (hcovers : u.Covers)
    (hrw : u.uioRw = .UIO_WRITE) (hoffset : u.uioOffset < 2 ^ 32) :
    Prog.wp (sfsIo sv) (fun _ io => Stored n live sv ino fs u u.uioResid io)
      (fun code io => ∃ m, Stored n live sv ino fs u m io ∧ Refused u m code) (fun _ => False)
      ⟨fs, u⟩ := by
  have hbody := sfsIoBody_write h hloaded hcovers hrw
  have hio := @sfsIo_of_body fs live sv ino n u u.uioResid True
    (fun m code _ => Refused u m code) hloaded hcovers hrw hoffset
    (Prog.wp_mono hbody (fun _ _ hdone => ⟨hdone, trivial⟩) (fun _ _ hfails => hfails)
      (fun _ hbad => hbad))
  exact Prog.wp_mono hio (fun _ _ hdone => hdone.1) (fun _ _ hfails => hfails)
    (fun _ hbad => hbad)

/-- A write inside one block happens or does not. -/
theorem sfsIo_within (h : Files n live fs) (hloaded : Loaded fs sv ino) (hcovers : u.Covers)
    (hrw : u.uioRw = .UIO_WRITE) (hoffset : u.uioOffset < 2 ^ 32) (hsome : 0 < u.uioResid)
    (hspan : u.uioOffset % 512 + u.uioResid ≤ 512) (hshort : u.uioResid < 512) :
    Prog.wp (sfsIo sv) (fun _ io => Stored n live sv ino fs u u.uioResid io ∧ Room fs ino u)
      (fun code io => Stored n live sv ino fs u 0 io ∧ Stuck fs ino u code io.fs.sfsFreemap)
      (fun _ => False) ⟨fs, u⟩ := by
  have hbody := sfsIoBody_within h hloaded hcovers hrw hsome hspan hshort
  have hio := @sfsIo_of_body fs live sv ino n u u.uioResid (Room fs ino u)
    (fun m' code freemap => m' = 0 ∧ Stuck fs ino u code freemap) hloaded hcovers hrw hoffset ?_
  · refine Prog.wp_mono hio (fun _ _ hdone => hdone) ?_ (fun _ hbad => hbad)
    intro code io ⟨m', hstored, hnone, hstuck⟩
    subst hnone
    exact ⟨hstored, hstuck⟩
  · refine Prog.wp_mono hbody (fun _ _ hdone => hdone) ?_ (fun _ hbad => hbad)
    intro code io ⟨hprogress, hstuck⟩
    exact ⟨0, hprogress, rfl, hstuck⟩

/-! Reading. -/

/-- The bytes of one block of a file. -/
theorem slice_fileBytes (file : Nat → Block) {skip len : Nat} (hspan : skip + len ≤ 512) :
    (file k).bytes.slice skip len = (fileBytes file).slice (k * 512 + skip) len := by
  apply List.map_congr_left
  intro i hi
  have hlt := List.mem_range.mp hi
  rw [fileBytes, show (k * 512 + skip + i) / 512 = k by omega,
    show (k * 512 + skip + i) % 512 = skip + i by omega]

/-- The call hands out the next `m` bytes of the file and changes nothing. -/
def Reads (ino : Nat) (fs : SfsFs) (body : IoOp Unit) (m : Nat) (u : Uio) : Prop :=
  Prog.Returns body
    (fun _ io => io = ⟨fs, u.advance ((fileBytes (fs.file ino)).slice u.uioOffset m)⟩) ⟨fs, u⟩

theorem Reads.none (hcovers : u.Covers) : Reads ino fs (pure ()) 0 u := by
  show (⟨fs, u⟩ : Io) = ⟨fs, u.advance []⟩
  rw [Uio.advance_nil hcovers]

section Fetched

variable (hcovers : u.Covers) (hm : m ≤ u.uioResid) (b : Bytes)

include hcovers hm

theorem resid_fetched :
    (u.advance (b.slice u.uioOffset m)).uioResid = u.uioResid - m := by
  rw [hcovers.resid_advance (by rw [Bytes.length_slice]; exact hm), Bytes.length_slice]

theorem covers_fetched : (u.advance (b.slice u.uioOffset m)).Covers :=
  hcovers.advance (by rw [Bytes.length_slice]; exact hm)

theorem resident_fetched (hresident : u.Resident) :
    (u.advance (b.slice u.uioOffset m)).Resident :=
  hresident.advance hcovers (by rw [Bytes.length_slice]; exact hm)

end Fetched

theorem rw_fetched (data : List Byte) : (u.advance data).uioRw = u.uioRw := rfl

theorem offset_fetched (b : Bytes) (m : Nat) :
    (u.advance (b.slice u.uioOffset m)).uioOffset = u.uioOffset + m := by
  rw [Uio.advance, Bytes.length_slice]

theorem Reads.bind {first : IoOp Unit} {r : Unit → IoOp Unit}
    (hfirst : Reads ino fs first m u) (hcovers : u.Covers) (hfits : m + m' ≤ u.uioResid)
    (hrest : Reads ino fs (r ()) m'
      (u.advance ((fileBytes (fs.file ino)).slice u.uioOffset m))) :
    Reads ino fs (first >>= r) (m + m') u := by
  unfold Reads Prog.Returns
  rw [Prog.wp_bind]
  refine Prog.Returns.mono hfirst ?_
  intro _ io hio
  subst hio
  refine Prog.Returns.mono hrest ?_
  intro _ io hio
  subst hio
  have hlengths : ((fileBytes (fs.file ino)).slice u.uioOffset m).length +
      ((fileBytes (fs.file ino)).slice (u.uioOffset + m) m').length ≤ u.uioResid := by
    rw [Bytes.length_slice, Bytes.length_slice]
    exact hfits
  rw [offset_fetched, Uio.advance_append hcovers hlengths, Bytes.slice_append]

/-- The buffer is filled with block `k` of the file. -/
theorem wp_partialioFill {post : Block → Io → Prop} {fails : Errno → Io → Prop}
    {bad : Fault → Prop} (h : Files n live fs) (hlive : live ino = true)
    (hread : u.uioRw = .UIO_READ) (hdone : post (fs.file ino k) ⟨fs, u⟩) :
    Prog.wp (partialioFill (fs.blockAt ino (.data k))) post fails bad ⟨fs, u⟩ := by
  rw [SfsFs.file, fileBlock] at hdone
  have hblock : dataBlock fs.disk (fs.inode ino) k = fs.blockAt ino (.data k) := rfl
  rw [hblock] at hdone
  simp only [partialioFill, ↓Prog.wp_bind, ↓Prog.wp_get, ↓Prog.wp_ite]
  split
  case isTrue hhole =>
      rw [if_pos hhole] at hdone
      simp only [↓Prog.wp_assert, ↓Prog.wp_pure, hread, if_true]
      exact hdone
  case isFalse hmapped =>
      rw [if_neg hmapped] at hdone
      rw [wp_onFs]
      exact wp_sfsRblock _ (h.on_device hlive rfl hmapped) h.quiet hdone

variable (h : Files n live fs) (hloaded : Loaded fs sv ino) (hcovers : u.Covers)
  (hresident : u.Resident) (hread : u.uioRw = .UIO_READ)

include h hloaded hcovers hresident hread

theorem sfsPartialio_read (hlen : len ≤ u.uioResid) (hspan : u.uioOffset % 512 + len ≤ 512)
    (hrange : u.uioOffset / 512 < 143) :
    Reads ino fs (sfsPartialio sv (u.uioOffset % 512) len) len u := by
  have hlive := hloaded.alive h
  unfold Reads Prog.Returns
  simp only [sfsPartialio, ↓Prog.wp_bind, ↓Prog.wp_get, ↓Prog.wp_assert]
  rw [if_pos hspan, show decide (u.uioRw = .UIO_WRITE) = false by rw [hread]; rfl, wp_onFs]
  refine sfsBmap_read h hloaded hrange ?_
  refine wp_partialioFill h hlive hread ?_
  rw [wp_onUio]
  have hlength := Bytes.length_slice (fs.file ino (u.uioOffset / 512)).bytes
    (u.uioOffset % 512) len
  refine Prog.wp_mono (Uio.uiomove_wp hcovers hlen hlength) ?_ ?_ (fun _ hbad => hbad)
  · rintro moved u' ⟨_, hu'⟩
    subst hu'
    rw [Prog.wp_when, if_neg (by rw [hread]; decide), Uio.moving, hread]
    simp only
    rw [List.take_of_length_le (Nat.le_of_eq hlength), slice_fileBytes _ hspan,
      Nat.div_add_mod']
  · rintro code u' ⟨_, hmissing, _⟩
    exact hmissing hresident

theorem sfsBlockio_read (hresid : 512 ≤ u.uioResid) (haligned : u.uioOffset % 512 = 0)
    (hrange : u.uioOffset / 512 < 143) : Reads ino fs (sfsBlockio sv) 512 u := by
  have hlive := hloaded.alive h
  have hpos : u.uioOffset / 512 * 512 = u.uioOffset := by omega
  have hslice : (fs.file ino (u.uioOffset / 512)).list =
      (fileBytes (fs.file ino)).slice u.uioOffset 512 := by
    have hspan := @slice_fileBytes (u.uioOffset / 512) (fs.file ino) 0 512 (by decide)
    rw [Nat.add_zero, hpos] at hspan
    exact hspan
  unfold Reads Prog.Returns
  rw [← hslice, SfsFs.file, fileBlock]
  have hblock : dataBlock fs.disk (fs.inode ino) (u.uioOffset / 512) =
      fs.blockAt ino (.data (u.uioOffset / 512)) := rfl
  rw [hblock]
  simp only [sfsBlockio, ↓Prog.wp_bind, ↓Prog.wp_get]
  rw [show decide (u.uioRw = .UIO_WRITE) = false by rw [hread]; rfl, wp_onFs]
  refine sfsBmap_read h hloaded hrange ?_
  rw [Prog.wp_ite]
  split
  case isTrue hhole =>
      simp only [↓Prog.wp_bind, ↓Prog.wp_assert, hread, if_true, wp_onUio]
      refine Prog.wp_mono (Uio.uiomovezeros_wp hcovers hread hresid) ?_ ?_ (fun _ hbad => hbad)
      · intro _ u' hu'
        subst hu'
        have hzeros : (Record.zeros : Block).list = List.replicate 512 0 := by
          rw [List.eq_replicate_iff]
          refine ⟨Record.length_list _, ?_⟩
          intro byte hbyte
          obtain ⟨i, _, rfl⟩ := List.mem_map.mp hbyte
          exact Record.bytes_zeros _
        rw [hzeros]
      · intro code u' ⟨_, hmissing⟩
        exact hmissing hresident
  case isFalse hmapped =>
      have hdevice := @blockioDevice_wp fs fs (fs.blockAt ino (.data (u.uioOffset / 512))) u
        (fs.disk (fs.blockAt ino (.data (u.uioOffset / 512)))).list hcovers hresid
        (Record.length_list _) ?_
      · refine Prog.wp_mono hdevice (fun _ _ hio => hio) ?_ (fun _ hbad => hbad)
        intro code io ⟨_, hmissing, _⟩
        exact hmissing hresident
      · refine sfsRwblock_read (blockUio_atBlock hcovers hresid _) hread
          (h.on_device hlive rfl hmapped) h.quiet ?_ rfl
        intro hmissing
        exact ⟨rfl, hmissing, rfl⟩

theorem sfsBlockios_read (hresid : 512 * count ≤ u.uioResid) (haligned : u.uioOffset % 512 = 0)
    (hrange : u.uioOffset + 512 * count ≤ 143 * 512) (start : Nat) :
    Reads ino fs (Prog.forFrom (fun _ _ => sfsBlockio sv) count start ()) (512 * count) u := by
  induction count generalizing u start with
  | zero => exact .none hcovers
  | succ count ih =>
      have hblock : 512 ≤ u.uioResid := by
        clear hrange
        omega
      have hfits : 512 + 512 * count ≤ u.uioResid := by
        clear hrange
        omega
      have hleft := resid_fetched hcovers hblock (fileBytes (fs.file ino))
      have hoffset := @offset_fetched u (fileBytes (fs.file ino)) 512
      have hinside : u.uioOffset / 512 < 143 := by
        apply Nat.div_lt_of_lt_mul
        clear hresid hfits
        omega
      have hfirst := sfsBlockio_read h hloaded hcovers hresident hread hblock haligned hinside
      have hrest := ih (covers_fetched hcovers hblock (fileBytes (fs.file ino)))
        (resident_fetched hcovers hblock (fileBytes (fs.file ino)) hresident)
        ((rw_fetched _).trans hread) (by rw [hleft]; clear hrange; omega)
        (by rw [hoffset]; clear hrange; omega) (by rw [hoffset]; clear hresid hfits; omega)
        (start + 1)
      rw [show 512 * (count + 1) = 512 + 512 * count by omega]
      exact Reads.bind hfirst hcovers hfits hrest

theorem sfsIoTail_read (hresid : u.uioResid < 512) (haligned : u.uioOffset % 512 = 0)
    (hrange : u.uioOffset + u.uioResid ≤ 143 * 512) :
    Reads ino fs (sfsIoTail sv) u.uioResid u := by
  unfold Reads Prog.Returns
  simp only [sfsIoTail, ↓Prog.wp_bind, ↓Prog.wp_get, ↓Prog.wp_assert]
  rw [if_pos hresid, Prog.wp_when]
  split
  case isTrue hsome =>
      have hpart := sfsPartialio_read h hloaded hcovers hresident hread (Nat.le_refl _)
        (by omega) (by omega)
      rw [haligned] at hpart
      exact hpart
  case isFalse hnone =>
      rw [show u.uioResid = 0 by omega]
      exact Reads.none hcovers

theorem sfsIoBlocks_read (haligned : u.uioResid ≠ 0 → u.uioOffset % 512 = 0)
    (hrange : u.uioOffset + u.uioResid ≤ 143 * 512) :
    Reads ino fs (sfsIoBlocks sv) u.uioResid u := by
  unfold Reads Prog.Returns
  simp only [sfsIoBlocks, ↓Prog.wp_bind, ↓Prog.wp_get]
  rw [Prog.wp_when]
  split
  case isFalse hnone =>
      rw [show u.uioResid = 0 by omega]
      exact Reads.none hcovers
  case isTrue hsome =>
      have haligned := haligned hsome
      have hfits : 512 * (u.uioResid / 512) ≤ u.uioResid := by omega
      have hsplit : u.uioResid = 512 * (u.uioResid / 512) + u.uioResid % 512 := by omega
      have hblocks := sfsBlockios_read h hloaded hcovers hresident hread hfits haligned
        (by omega) 0
      have hleft := resid_fetched hcovers hfits (fileBytes (fs.file ino))
      have htail := sfsIoTail_read h hloaded (covers_fetched hcovers hfits (fileBytes (fs.file ino)))
        (resident_fetched hcovers hfits (fileBytes (fs.file ino)) hresident) hread (by omega)
        (by rw [offset_fetched]; omega) (by rw [offset_fetched]; omega)
      rw [show u.uioResid - 512 * (u.uioResid / 512) = u.uioResid % 512 by omega] at hleft
      rw [hleft] at htail
      have hboth := hblocks.bind (r := fun _ => sfsIoTail sv) hcovers (by omega) htail
      rw [← hsplit] at hboth
      simp only [↓Prog.wp_bind, ↓Prog.wp_assert]
      rw [if_pos haligned]
      unfold Reads Prog.Returns at hboth
      rw [Prog.wp_bind] at hboth
      exact hboth

theorem sfsIoBody_read (hrange : u.uioOffset + u.uioResid ≤ 143 * 512)
    (hinside : u.uioOffset % 512 ≠ 0 → u.uioOffset / 512 < 143) :
    Reads ino fs (sfsIoBody sv) u.uioResid u := by
  by_cases haligned : u.uioOffset % 512 = 0
  · unfold Reads Prog.Returns
    simp only [sfsIoBody, ↓Prog.wp_bind, ↓Prog.wp_get, ↓Prog.wp_when, haligned, ne_eq, not_true,
      if_false]
    exact sfsIoBlocks_read h hloaded hcovers hresident hread (fun _ => haligned) hrange
  · have hfits : min (512 - u.uioOffset % 512) u.uioResid ≤ u.uioResid := by omega
    have hsplit : min (512 - u.uioOffset % 512) u.uioResid +
        (u.uioResid - min (512 - u.uioOffset % 512) u.uioResid) = u.uioResid := by omega
    have hpart := sfsPartialio_read h hloaded hcovers hresident hread hfits (by omega)
      (hinside haligned)
    have hleft := resid_fetched hcovers hfits (fileBytes (fs.file ino))
    have hblocks := sfsIoBlocks_read h hloaded
      (covers_fetched hcovers hfits (fileBytes (fs.file ino)))
      (resident_fetched hcovers hfits (fileBytes (fs.file ino)) hresident) hread
      (by rw [offset_fetched]; omega) (by rw [offset_fetched]; omega)
    rw [hleft] at hblocks
    have hboth := hpart.bind (r := fun _ => sfsIoBlocks sv) hcovers (by omega) hblocks
    rw [hsplit] at hboth
    unfold Reads Prog.Returns at hboth ⊢
    simp only [sfsIoBody, ↓Prog.wp_bind, ↓Prog.wp_get, ↓Prog.wp_when]
    rw [if_pos haligned]
    rw [Prog.wp_bind] at hboth
    exact hboth

omit h hloaded hcovers hresident hread

theorem offT_of_lt (hx : x < 2 ^ 31) : offT x = x := by
  rw [offT, Nat.mod_eq_of_lt (by omega), if_pos hx]

theorem sfsIoOut_read {post : Unit → Io → Prop} {fails : Errno → Io → Prop} {bad : Fault → Prop}
    (hread : u.uioRw = .UIO_READ) (extraresid : Nat)
    (hdone : post () ⟨fs, { u with uioResid := (u.uioResid + extraresid) % 2 ^ 32 }⟩) :
    Prog.wp (sfsIoOut sv extraresid (.ok ())) post fails bad ⟨fs, u⟩ := by
  simp only [sfsIoOut, ↓Prog.wp_bind, ↓Prog.wp_get, ↓Prog.wp_when]
  rw [if_neg (by rw [hread]; simp)]
  exact hdone

/-- What was held back because of the end of the file comes back at the end. -/
theorem unclip (hcovers : u.Covers) (hdata : data.length = m) (hm : m ≤ u.uioResid)
    (hextra : extraresid = u.uioResid - m) :
    { ({ u with uioResid := m } : Uio).advance data with
      uioResid := ((({ u with uioResid := m } : Uio).advance data).uioResid + extraresid) %
        2 ^ 32 } = u.advance data := by
  have hword := hcovers.word
  have hresid : ((m + 2 ^ 32 - m) % 2 ^ 32 + extraresid) % 2 ^ 32 =
      (u.uioResid + 2 ^ 32 - m) % 2 ^ 32 := by omega
  simp only [Uio.advance, hdata, hresid]

/-- A read hands out the bytes before the end of the file. -/
theorem sfsIo_read (h : Files n live fs) (hloaded : Loaded fs sv ino) (hcovers : u.Covers)
    (hresident : u.Resident) (hread : u.uioRw = .UIO_READ) (hsize : fs.size sv ≤ 143 * 512)
    (hend : u.uioOffset + u.uioResid < 2 ^ 31) :
    Reads ino fs (sfsIo sv) (min u.uioResid (fs.size sv - u.uioOffset)) u := by
  have hsize' : (fs.vnode sv).svI.get sfiSize = fs.size sv := rfl
  unfold Reads Prog.Returns
  simp only [sfsIo, ↓Prog.wp_bind, ↓Prog.wp_get, ↓Prog.wp_ite]
  rw [hsize', offT_of_lt (by omega), offT_of_lt hend]
  by_cases hpast : fs.size sv ≤ u.uioOffset
  · rw [if_pos ⟨hread, by omega⟩, show min u.uioResid (fs.size sv - u.uioOffset) = 0 by omega]
    exact Reads.none hcovers
  · rw [if_neg (by omega)]
    by_cases hclip : fs.size sv < u.uioOffset + u.uioResid
    · have hextra : (((u.uioOffset + u.uioResid : Nat) : Int) - (fs.size sv : Nat)).toNat =
          u.uioOffset + u.uioResid - fs.size sv := by omega
      have hleft : u.uioResid - (u.uioOffset + u.uioResid - fs.size sv) =
          fs.size sv - u.uioOffset := by omega
      rw [if_pos ⟨hread, by omega⟩, hextra,
        show min u.uioResid (fs.size sv - u.uioOffset) = fs.size sv - u.uioOffset by omega]
      simp only [↓Prog.wp_assert, setUio, ↓Prog.wp_modify, ↓Prog.wp_attempt]
      rw [if_pos (by omega), hleft]
      -- the part of the request before the end of the file
      have hbuffer := hcovers.resid
      have hword := hcovers.word
      have hbody := @sfsIoBody_read fs live sv ino n
        { u with uioResid := fs.size sv - u.uioOffset } h hloaded ?_ ?_ hread ?_ ?_
      · refine Prog.wp_mono hbody ?_ (fun _ _ hfails => hfails.elim) (fun _ hbad => hbad)
        intro _ io hio
        subst hio
        refine sfsIoOut_read (by rw [rw_fetched]; exact hread) _ ?_
        rw [unclip hcovers (Bytes.length_slice _ _ _) (by omega) (by omega)]
      · constructor
        · show fs.size sv - u.uioOffset ≤ u.iov.length
          omega
        · show fs.size sv - u.uioOffset < 2 ^ 32
          omega
      · intro reach hreach
        have hall := hresident reach hreach
        show fs.size sv - u.uioOffset ≤ reach
        omega
      · show u.uioOffset + (fs.size sv - u.uioOffset) ≤ 143 * 512
        omega
      · show u.uioOffset % 512 ≠ 0 → u.uioOffset / 512 < 143
        omega
    · rw [if_neg (by omega), show min u.uioResid (fs.size sv - u.uioOffset) = u.uioResid by omega]
      simp only [↓Prog.wp_attempt]
      have hbody := sfsIoBody_read h hloaded hcovers hresident hread (by omega) (by omega)
      refine Prog.wp_mono hbody ?_ (fun _ _ hfails => hfails.elim) (fun _ hbad => hbad)
      intro _ io hio
      subst hio
      refine sfsIoOut_read ((rw_fetched _).trans hread) 0 ?_
      have hword := (covers_fetched hcovers (Nat.le_refl _) (fileBytes (fs.file ino))).word
      rw [Nat.add_zero, Nat.mod_eq_of_lt hword]

end OS161.Sfs
