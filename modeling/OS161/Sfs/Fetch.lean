import OS161.Sfs.FileIo

namespace OS161.Sfs

open OS161.Data
open OS161.Kern
open OS161.Lib
open OS161.Vfs

/-! Reading where the buffer may be out of reach and the file longer than its blocks can
make it: a read that fails changes nothing either. -/

variable {fs : SfsFs} {live : Nat → Bool} {sv ino n : Nat} {u : Uio}

/-- The call hands out the next `m` bytes of the file or fails, and changes nothing. -/
def Fetches (ino : Nat) (fs : SfsFs) (body : IoOp Unit) (m : Nat) (u : Uio) : Prop :=
  Prog.wp body
    (fun _ io => io = ⟨fs, u.advance ((fileBytes (fs.file ino)).slice u.uioOffset m)⟩)
    (fun _ io => io.fs = fs ∧ io.uio.uioRw = .UIO_READ) (fun _ => False) ⟨fs, u⟩

theorem Fetches.none (hcovers : u.Covers) : Fetches ino fs (pure ()) 0 u := by
  show (⟨fs, u⟩ : Io) = ⟨fs, u.advance []⟩
  rw [Uio.advance_nil hcovers]

theorem Fetches.bind {first : IoOp Unit} {r : Unit → IoOp Unit}
    (hfirst : Fetches ino fs first m u) (hcovers : u.Covers) (hfits : m + m' ≤ u.uioResid)
    (hrest : Fetches ino fs (r ()) m'
      (u.advance ((fileBytes (fs.file ino)).slice u.uioOffset m))) :
    Fetches ino fs (first >>= r) (m + m') u := by
  unfold Fetches
  rw [Prog.wp_bind]
  refine Prog.wp_mono hfirst ?_ (fun _ _ hfails => hfails) (fun _ hbad => hbad)
  intro _ io hio
  subst hio
  refine Prog.wp_mono hrest ?_ (fun _ _ hfails => hfails) (fun _ hbad => hbad)
  intro _ io hio
  subst hio
  have hlengths : ((fileBytes (fs.file ino)).slice u.uioOffset m).length +
      ((fileBytes (fs.file ino)).slice (u.uioOffset + m) m').length ≤ u.uioResid := by
    rw [Bytes.length_slice, Bytes.length_slice]
    exact hfits
  rw [offset_fetched, Uio.advance_append hcovers hlengths, Bytes.slice_append]

/-- No transfer turns a uio round. -/
theorem uiomoveLoop_rw (turns : Nat) (ptr : List Byte) (size : Nat) :
    Prog.wp (Uio.uiomoveLoop turns ptr size) (fun _ u' => u'.uioRw = u.uioRw)
      (fun _ u' => u'.uioRw = u.uioRw) (fun _ => True) u := by
  induction turns generalizing u ptr size with
  | zero => rfl
  | succ turns ih =>
      simp only [Uio.uiomoveLoop, ↓Prog.wp_bind, ↓Prog.wp_get, ↓Prog.wp_ite, ↓Prog.wp_pure,
        ↓Prog.wp_assert, ↓Prog.wp_when, ↓Prog.wp_fail, ↓Prog.wp_modify]
      split
      case isTrue => trivial
      case isFalse =>
          split
          case isFalse => trivial
          case isTrue =>
              split
              case isTrue => trivial
              case isFalse => exact ih _ _

theorem uiomovezerosLoop_rw (turns size : Nat) :
    Prog.wp (Uio.uiomovezerosLoop turns size) (fun _ u' => u'.uioRw = u.uioRw)
      (fun _ u' => u'.uioRw = u.uioRw) (fun _ => True) u := by
  induction turns generalizing u size with
  | zero => rfl
  | succ turns ih =>
      simp only [Uio.uiomovezerosLoop, ↓Prog.wp_when, ↓Prog.wp_bind]
      split
      case isFalse => trivial
      case isTrue =>
          refine Prog.wp_mono (uiomoveLoop_rw _ _ _) ?_ (fun _ _ hfails => hfails)
            (fun _ _ => trivial)
          intro _ u' hsame
          rw [← hsame]
          exact ih _

theorem uiomovezeros_rw (hread : u.uioRw = .UIO_READ) (size : Nat) :
    Prog.wp (Uio.uiomovezeros size) (fun _ u' => u'.uioRw = u.uioRw)
      (fun _ u' => u'.uioRw = u.uioRw) (fun _ => True) u := by
  simp only [Uio.uiomovezeros, ↓Prog.wp_bind, ↓Prog.wp_get, ↓Prog.wp_assert, hread, if_true]
  rw [← hread]
  exact uiomovezerosLoop_rw _ _

section

variable (h : Files n live fs) (hloaded : Loaded fs sv ino) (hread : u.uioRw = .UIO_READ)

include h hloaded hread

/-- The block is looked up, where the file can have one. -/
theorem wp_bmapFetch {post : Nat → Io → Prop} {bad : Fault → Prop}
    (hdone : post (fs.blockAt ino (.data (u.uioOffset / 512))) ⟨fs, u⟩) :
    Prog.wp (onFs (sfsBmap sv (u.uioOffset / 512) (decide (u.uioRw = .UIO_WRITE)))) post
      (fun _ io => io.fs = fs ∧ io.uio.uioRw = .UIO_READ) bad ⟨fs, u⟩ := by
  rw [show decide (u.uioRw = .UIO_WRITE) = false by rw [hread]; rfl, wp_onFs]
  by_cases hrange : u.uioOffset / 512 < 143
  · exact sfsBmap_read h hloaded hrange hdone
  · exact sfsBmap_past (by omega) false ⟨rfl, hread⟩

variable (hcovers : u.Covers)

include hcovers

theorem sfsPartialio_fetch (hlen : len ≤ u.uioResid) (hspan : u.uioOffset % 512 + len ≤ 512) :
    Fetches ino fs (sfsPartialio sv (u.uioOffset % 512) len) len u := by
  unfold Fetches
  simp only [sfsPartialio, ↓Prog.wp_bind, ↓Prog.wp_get, ↓Prog.wp_assert]
  rw [if_pos hspan]
  refine wp_bmapFetch h hloaded hread ?_
  refine wp_partialioFill h (hloaded.alive h) hread ?_
  rw [wp_onUio]
  have hlength := Bytes.length_slice (fs.file ino (u.uioOffset / 512)).bytes
    (u.uioOffset % 512) len
  refine Prog.wp_mono (Uio.uiomove_wp hcovers hlen hlength) ?_ ?_ (fun _ hbad => hbad)
  · rintro moved u' ⟨_, rfl⟩
    rw [Prog.wp_when, if_neg (by rw [hread]; decide), Uio.moving, hread]
    simp only
    rw [List.take_of_length_le (Nat.le_of_eq hlength), slice_fileBytes _ hspan,
      Nat.div_add_mod']
  · rintro code _ ⟨_, _, rfl⟩
    exact ⟨rfl, hread⟩

theorem sfsBlockio_fetch (hresid : 512 ≤ u.uioResid) (haligned : u.uioOffset % 512 = 0) :
    Fetches ino fs (sfsBlockio sv) 512 u := by
  have hlive := hloaded.alive h
  have hpos : u.uioOffset / 512 * 512 = u.uioOffset := by omega
  have hslice : (fs.file ino (u.uioOffset / 512)).list =
      (fileBytes (fs.file ino)).slice u.uioOffset 512 := by
    have hspan := @slice_fileBytes (u.uioOffset / 512) (fs.file ino) 0 512 (by decide)
    rw [Nat.add_zero, hpos] at hspan
    exact hspan
  unfold Fetches
  rw [← hslice, SfsFs.file, fileBlock]
  have hblock : dataBlock fs.disk (fs.inode ino) (u.uioOffset / 512) =
      fs.blockAt ino (.data (u.uioOffset / 512)) := rfl
  rw [hblock]
  simp only [sfsBlockio, ↓Prog.wp_bind, ↓Prog.wp_get]
  refine wp_bmapFetch h hloaded hread ?_
  rw [Prog.wp_ite]
  split
  case isTrue hhole =>
      have hzeros : (Record.zeros : Block).list = List.replicate 512 0 := by
        rw [List.eq_replicate_iff]
        refine ⟨Record.length_list _, ?_⟩
        intro byte hbyte
        obtain ⟨i, _, rfl⟩ := List.mem_map.mp hbyte
        exact Record.bytes_zeros _
      have hmoves := Prog.wp_and (Uio.uiomovezeros_wp hcovers hread hresid)
        (uiomovezeros_rw (u := u) hread 512)
      simp only [↓Prog.wp_bind, ↓Prog.wp_assert, hread, if_true, wp_onUio]
      refine Prog.wp_mono hmoves ?_ ?_ (fun _ hbad => hbad.1)
      · rintro _ _ ⟨rfl, _⟩
        rw [hzeros]
      · rintro _ u' ⟨_, hsame⟩
        exact ⟨trivial, hsame.trans hread⟩
  case isFalse hmapped =>
      have hdevice := @blockioDevice_wp fs fs (fs.blockAt ino (.data (u.uioOffset / 512))) u
        (fs.disk (fs.blockAt ino (.data (u.uioOffset / 512)))).list hcovers hresid
        (Record.length_list _) ?_
      · refine Prog.wp_mono hdevice (fun _ _ hio => hio) ?_ (fun _ hbad => hbad)
        rintro code io ⟨_, _, rfl⟩
        exact ⟨rfl, hread⟩
      · refine sfsRwblock_read (blockUio_atBlock hcovers hresid _) hread
          (h.on_device hlive rfl hmapped) h.quiet ?_ rfl
        intro hmissing
        exact ⟨rfl, hmissing, rfl⟩

theorem sfsBlockios_fetch (hresid : 512 * count ≤ u.uioResid)
    (haligned : u.uioOffset % 512 = 0) (start : Nat) :
    Fetches ino fs (Prog.forFrom (fun _ _ => sfsBlockio sv) count start ()) (512 * count) u := by
  induction count generalizing u start with
  | zero => exact .none hcovers
  | succ count ih =>
      have hblock : 512 ≤ u.uioResid := by omega
      have hleft := resid_fetched hcovers hblock (fileBytes (fs.file ino))
      have hoffset := @offset_fetched u (fileBytes (fs.file ino)) 512
      have hfirst := sfsBlockio_fetch h hloaded hread hcovers hblock haligned
      have hrest := ih ((rw_fetched _).trans hread)
        (covers_fetched hcovers hblock (fileBytes (fs.file ino))) (by omega) (by omega)
        (start + 1)
      rw [show 512 * (count + 1) = 512 + 512 * count by omega]
      exact Fetches.bind hfirst hcovers (by omega) hrest

theorem sfsIoTail_fetch (hresid : u.uioResid < 512) (haligned : u.uioOffset % 512 = 0) :
    Fetches ino fs (sfsIoTail sv) u.uioResid u := by
  unfold Fetches
  simp only [sfsIoTail, ↓Prog.wp_bind, ↓Prog.wp_get, ↓Prog.wp_assert]
  rw [if_pos hresid, Prog.wp_when]
  split
  case isTrue hsome =>
      have hpart := sfsPartialio_fetch h hloaded hread hcovers (Nat.le_refl _) (by omega)
      rw [haligned] at hpart
      exact hpart
  case isFalse hnone =>
      rw [show u.uioResid = 0 by omega]
      exact Fetches.none hcovers

theorem sfsIoBlocks_fetch (haligned : u.uioResid ≠ 0 → u.uioOffset % 512 = 0) :
    Fetches ino fs (sfsIoBlocks sv) u.uioResid u := by
  unfold Fetches
  simp only [sfsIoBlocks, ↓Prog.wp_bind, ↓Prog.wp_get]
  rw [Prog.wp_when]
  split
  case isFalse hnone =>
      rw [show u.uioResid = 0 by omega]
      exact Fetches.none hcovers
  case isTrue hsome =>
      have haligned := haligned hsome
      have hfits : 512 * (u.uioResid / 512) ≤ u.uioResid := by omega
      have hsplit : u.uioResid = 512 * (u.uioResid / 512) + u.uioResid % 512 := by omega
      have hblocks := sfsBlockios_fetch h hloaded hread hcovers hfits haligned 0
      have hleft := resid_fetched hcovers hfits (fileBytes (fs.file ino))
      have htail := sfsIoTail_fetch h hloaded ((rw_fetched _).trans hread)
        (covers_fetched hcovers hfits (fileBytes (fs.file ino))) (by omega)
        (by rw [offset_fetched]; omega)
      rw [show u.uioResid - 512 * (u.uioResid / 512) = u.uioResid % 512 by omega] at hleft
      rw [hleft] at htail
      have hboth := hblocks.bind (r := fun _ => sfsIoTail sv) hcovers (by omega) htail
      rw [← hsplit] at hboth
      simp only [↓Prog.wp_bind, ↓Prog.wp_assert]
      rw [if_pos haligned]
      unfold Fetches at hboth
      rw [Prog.wp_bind] at hboth
      exact hboth

theorem sfsIoBody_fetch : Fetches ino fs (sfsIoBody sv) u.uioResid u := by
  by_cases haligned : u.uioOffset % 512 = 0
  · unfold Fetches
    simp only [sfsIoBody, ↓Prog.wp_bind, ↓Prog.wp_get, ↓Prog.wp_when, haligned, ne_eq, not_true,
      if_false]
    exact sfsIoBlocks_fetch h hloaded hread hcovers (fun _ => haligned)
  · have hfits : min (512 - u.uioOffset % 512) u.uioResid ≤ u.uioResid := by omega
    have hsplit : min (512 - u.uioOffset % 512) u.uioResid +
        (u.uioResid - min (512 - u.uioOffset % 512) u.uioResid) = u.uioResid := by omega
    have hpart := sfsPartialio_fetch h hloaded hread hcovers hfits (by omega)
    have hleft := resid_fetched hcovers hfits (fileBytes (fs.file ino))
    have hblocks := sfsIoBlocks_fetch h hloaded ((rw_fetched _).trans hread)
      (covers_fetched hcovers hfits (fileBytes (fs.file ino)))
      (by rw [hleft, offset_fetched]; omega)
    rw [hleft] at hblocks
    have hboth := hpart.bind (r := fun _ => sfsIoBlocks sv) hcovers (by omega) hblocks
    rw [hsplit] at hboth
    unfold Fetches at hboth ⊢
    simp only [sfsIoBody, ↓Prog.wp_bind, ↓Prog.wp_get, ↓Prog.wp_when]
    rw [if_pos haligned]
    rw [Prog.wp_bind] at hboth
    exact hboth

end

/-- The end of a read, whatever came of it. -/
theorem sfsIoOut_fetch {post : Unit → Io → Prop} {bad : Fault → Prop}
    (hread : u.uioRw = .UIO_READ) (extraresid : Nat) (result : Except Errno Unit)
    (hdone : result = .ok () →
      post () ⟨fs, { u with uioResid := (u.uioResid + extraresid) % 2 ^ 32 }⟩) :
    Prog.wp (sfsIoOut sv extraresid result) post
      (fun _ io => io.fs = fs ∧ io.uio.uioRw = .UIO_READ) bad ⟨fs, u⟩ := by
  simp only [sfsIoOut, ↓Prog.wp_bind, ↓Prog.wp_get, ↓Prog.wp_when]
  rw [if_neg (by rw [hread]; simp)]
  cases result with
  | ok => exact hdone rfl
  | error code => exact ⟨rfl, hread⟩

/-- A read hands out the bytes before the end of the file, or it fails; either way the file
system is as it was. -/
theorem sfsIo_fetch (h : Files n live fs) (hloaded : Loaded fs sv ino) (hcovers : u.Covers)
    (hread : u.uioRw = .UIO_READ) (hsize : fs.size sv < 2 ^ 31)
    (hend : u.uioOffset + u.uioResid < 2 ^ 31) :
    Fetches ino fs (sfsIo sv) (min u.uioResid (fs.size sv - u.uioOffset)) u := by
  have hsize' : (fs.vnode sv).svI.get sfiSize = fs.size sv := rfl
  unfold Fetches
  simp only [sfsIo, ↓Prog.wp_bind, ↓Prog.wp_get, ↓Prog.wp_ite]
  rw [hsize', offT_of_lt hsize, offT_of_lt hend]
  by_cases hpast : fs.size sv ≤ u.uioOffset
  · rw [if_pos ⟨hread, by omega⟩, show min u.uioResid (fs.size sv - u.uioOffset) = 0 by omega]
    exact Fetches.none hcovers
  · rw [if_neg (by omega)]
    by_cases hclip : fs.size sv < u.uioOffset + u.uioResid
    · have hextra : (((u.uioOffset + u.uioResid : Nat) : Int) - (fs.size sv : Nat)).toNat =
          u.uioOffset + u.uioResid - fs.size sv := by omega
      have hleft : u.uioResid - (u.uioOffset + u.uioResid - fs.size sv) =
          fs.size sv - u.uioOffset := by omega
      rw [if_pos ⟨hread, by omega⟩, hextra,
        show min u.uioResid (fs.size sv - u.uioOffset) = fs.size sv - u.uioOffset by omega]
      simp only [↓Prog.wp_assert, setUio, ↓Prog.wp_modify, ↓Prog.wp_attempt]
      rw [if_pos (by omega), hleft]
      -- the part of the request before the end of the file
      have hbuffer := hcovers.resid
      have hword := hcovers.word
      have hclipped : ({ u with uioResid := fs.size sv - u.uioOffset } : Uio).Covers :=
        ⟨by show fs.size sv - u.uioOffset ≤ u.iov.length; omega,
          by show fs.size sv - u.uioOffset < 2 ^ 32; omega⟩
      have hbody := @sfsIoBody_fetch fs live sv ino n
        { u with uioResid := fs.size sv - u.uioOffset } h hloaded hread hclipped
      refine Prog.wp_mono hbody ?_ ?_ (fun _ hbad => hbad)
      · rintro _ _ rfl
        refine sfsIoOut_fetch (by rw [rw_fetched]; exact hread) _ _ (fun _ => ?_)
        rw [unclip hcovers (Bytes.length_slice _ _ _) (by omega) (by omega)]
      · rintro code ⟨fs', u'⟩ ⟨rfl, hsame⟩
        exact sfsIoOut_fetch hsame _ _ (fun hok => by cases hok)
    · rw [if_neg (by omega), show min u.uioResid (fs.size sv - u.uioOffset) = u.uioResid by omega]
      simp only [↓Prog.wp_attempt]
      refine Prog.wp_mono (sfsIoBody_fetch h hloaded hread hcovers) ?_ ?_ (fun _ hbad => hbad)
      · rintro _ _ rfl
        refine sfsIoOut_fetch ((rw_fetched _).trans hread) 0 _ (fun _ => ?_)
        have hword := (covers_fetched hcovers (Nat.le_refl _) (fileBytes (fs.file ino))).word
        rw [Nat.add_zero, Nat.mod_eq_of_lt hword]
      · rintro code ⟨fs', u'⟩ ⟨rfl, hsame⟩
        exact sfsIoOut_fetch hsame _ _ (fun hok => by cases hok)

end OS161.Sfs
