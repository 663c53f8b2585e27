import OS161.Dev.LhdIsolation

namespace OS161.Dev.Lhd

open OS161.Data
open OS161.Kern
open OS161.Vfs

/-! The sectors of one call of `lhd_io`, and the end of the disk. -/

open LhdSoftc

/-- The call of `lhd_io`, up to its loop. -/
def LhdSoftc.called (s : LhdSoftc) (t : Tid) (uioRw : UioRw) (uioOffset : Int)
    (uioResid : Nat) : LhdSoftc :=
  s.setFrame t (lhdIo s.dBlocks uioRw uioOffset uioResid (s.frame t))

/-- What happens, by any thread and the card, until the call of `t` returns. -/
abbrev UntilReturn (t : Tid) : LhdSoftc → LhdSoftc → Prop :=
  Relation.ReflTransGen fun s s' => (s.frame t).point ≠ .returned ∧ Step s s'

/-- The operation is one that `t` starts in this call. -/
def Starts (s : LhdSoftc) (t : Tid) (uioRw : UioRw) (uioOffset : Int) (uioResid : Nat)
    (operation : Operation) : Prop :=
  ∃ s', UntilReturn t (s.called t uioRw uioOffset uioResid) s' ∧ operation ∈ s'.pending ∧
    operation.startedBy = t ∧ s.started ≤ operation.number

/-- The call returns `EINVAL` and starts nothing, or it starts operations only on the sectors
from the offset on that it was asked for, all of them on the disk. -/
def KeepsToDisk (s : LhdSoftc) (t : Tid) (uioRw : UioRw) (uioOffset : Int) (uioResid : Nat) :
    Prop :=
  (((s.called t uioRw uioOffset uioResid).frame t).point = .returned ∧
      ((s.called t uioRw uioOffset uioResid).frame t).result = some .EINVAL ∧
      ∀ operation, ¬ Starts s t uioRw uioOffset uioResid operation) ∨
    ∀ operation, Starts s t uioRw uioOffset uioResid operation →
      operation.sector < s.dBlocks ∧
        ∃ i < uioResid / LHD_SECTSIZE, (operation.sector : Int) = uioOffset / LHD_SECTSIZE + i

/-- The offset is not negative, or a check of `lhd_io` meets it, or there is nothing to do. -/
def Caught (dBlocks : Nat) (uioOffset : Int) (uioResid : Nat) : Prop :=
  0 ≤ uioOffset ∨ uioOffset % LHD_SECTSIZE ≠ 0 ∨ uioResid % LHD_SECTSIZE ≠ 0 ∨ uioResid = 0 ∨
    dBlocks < (uioOffset / LHD_SECTSIZE + (uioResid : Int) / LHD_SECTSIZE) % 2 ^ 32

section Checks

variable {f : Frame} {dBlocks : Nat} {uioRw : UioRw} {uioOffset : Int} {uioResid : Nat}

theorem u32_lt (n : Int) : u32 n < 2 ^ 32 := by
  rw [u32]
  omega

theorem sector_eq (haligned : uioOffset % LHD_SECTSIZE = 0) :
    ((u32 (uioOffset.tdiv LHD_SECTSIZE) : Nat) : Int) = uioOffset / LHD_SECTSIZE % 2 ^ 32 := by
  rw [Int.tdiv_eq_ediv_of_dvd (Int.dvd_of_emod_eq_zero haligned), u32]
  omega

theorem sectoff_eq_zero_iff (uioOffset : Int) :
    u32 (uioOffset.tmod LHD_SECTSIZE) = 0 ↔ uioOffset % LHD_SECTSIZE = 0 := by
  have hlow := Int.lt_tmod_of_pos uioOffset (b := LHD_SECTSIZE) (by decide)
  have hhigh := Int.tmod_lt_of_pos uioOffset (b := LHD_SECTSIZE) (by decide)
  rw [show ((LHD_SECTSIZE : Nat) : Int) = 512 from rfl] at *
  rw [← Int.dvd_iff_emod_eq_zero, Int.dvd_iff_tmod_eq_zero, u32]
  omega

/-- The sum that `lhd_io` compares with the size of the disk. -/
theorem end_eq (haligned : uioOffset % LHD_SECTSIZE = 0) (uioResid : Nat) :
    (((u32 (uioOffset.tdiv LHD_SECTSIZE) + uioResid / LHD_SECTSIZE) % 2 ^ 32 : Nat) : Int) =
      (uioOffset / LHD_SECTSIZE + (uioResid : Int) / LHD_SECTSIZE) % 2 ^ 32 := by
  have hsector := sector_eq haligned
  rw [show ((LHD_SECTSIZE : Nat) : Int) = 512 from rfl] at *
  rw [show LHD_SECTSIZE = 512 from rfl]
  omega

/-- A call that a check stops. -/
theorem lhdIo_refuses (hrefused : uioOffset % LHD_SECTSIZE ≠ 0 ∨ uioResid % LHD_SECTSIZE ≠ 0 ∨
      dBlocks < (uioOffset / LHD_SECTSIZE + (uioResid : Int) / LHD_SECTSIZE) % 2 ^ 32) :
    lhdIo dBlocks uioRw uioOffset uioResid f = { f with result := some .EINVAL } := by
  simp only [lhdIo]
  split
  case isTrue => rfl
  case isFalse haligned =>
    rw [not_or, not_not, not_not, sectoff_eq_zero_iff] at haligned
    have hpast := end_eq haligned.1 uioResid
    rw [if_pos]
    rcases hrefused with hoffset | hresid | hpast'
    · exact absurd haligned.1 hoffset
    · exact absurd haligned.2 hresid
    · omega

/-- A call that gets to the loop. -/
theorem lhdIo_enters (hoffset : uioOffset % LHD_SECTSIZE = 0) (hresid : uioResid % LHD_SECTSIZE = 0)
    (hend : (uioOffset / LHD_SECTSIZE + (uioResid : Int) / LHD_SECTSIZE) % 2 ^ 32 ≤ dBlocks) :
    lhdIo dBlocks uioRw uioOffset uioResid f = { f with
      uioRw := uioRw
      sector := u32 (uioOffset.tdiv LHD_SECTSIZE)
      len := uioResid / LHD_SECTSIZE
      i := 0
      point := .turn } := by
  have hsum := end_eq hoffset uioResid
  rw [lhdIo, if_neg, if_neg]
  · omega
  · rw [not_or, not_not, not_not, sectoff_eq_zero_iff]
    exact ⟨hoffset, hresid⟩

end Checks

/-! A call goes through its sectors. -/

/-- The frame of a call for `len` sectors from `first` on. -/
structure Frame.Within (first len : Nat) (f : Frame) : Prop where
  sector_eq : f.point ≠ .returned → f.sector = first
  len_eq : f.point ≠ .returned → f.len = len
  turn : f.point.Holds → f.i < len

namespace Frame.Within

variable {first len : Nat} {f g : Frame}

/-- A step between `P(lh_clear)` and `V(lh_clear)`. -/
theorem keep (hwithin : f.Within first len) (hholds : f.point.Holds)
    (hsector : g.sector = f.sector) (hlen : g.len = f.len) (hi : g.i = f.i) :
    g.Within first len := by
  have hin : f.point ≠ .returned := by
    intro hout
    rw [hout] at hholds
    exact hholds
  refine ⟨fun _ => hsector.trans (hwithin.sector_eq hin), fun _ => hlen.trans (hwithin.len_eq hin), ?_⟩
  intro _
  rw [hi]
  exact hwithin.turn hholds

/-- A step after which the thread does not have the disk. -/
theorem out (hwithin : f.Within first len) (hin : f.point ≠ .returned)
    (hsector : g.sector = f.sector) (hlen : g.len = f.len) (hout : ¬ g.point.Holds) :
    g.Within first len :=
  ⟨fun _ => hsector.trans (hwithin.sector_eq hin), fun _ => hlen.trans (hwithin.len_eq hin),
    fun hholds => absurd hholds hout⟩

end Frame.Within

/-- The operations that `t` has started from number `start` on are for these sectors. -/
def Sectors (s : LhdSoftc) (t : Tid) (start first len : Nat) : Prop :=
  ∀ operation ∈ s.pending, operation.startedBy = t → start ≤ operation.number →
    ∃ i < len, operation.sector = first + i

section Steps

variable {s s' : LhdSoftc} {t u : Tid} {start first len : Nat}

/-- Whatever a step does to a frame, it does to that of the thread that takes it. -/
theorem Step.within (hstep : Step s s') (hin : (s.frame t).point ≠ .returned)
    (hwithin : (s.frame t).Within first len) : (s'.frame t).Within first len := by
  have hset (u : Tid) (f : Frame) (hframe : s'.frame = Function.update s.frame u f)
      (hown : u = t → f.Within first len) : (s'.frame t).Within first len := by
    by_cases hu : t = u
    · subst hu
      rw [hframe, Function.update_self]
      exact hown rfl
    · rw [hframe, Function.update_of_ne hu]
      exact hwithin
  have hkeep (u : Tid) (f : Frame) (hframe : s'.frame = Function.update s.frame u f)
      (hholds : (s.frame u).point.Holds) (hsector : f.sector = (s.frame u).sector)
      (hlen : f.len = (s.frame u).len) (hi : f.i = (s.frame u).i) :
      (s'.frame t).Within first len := by
    refine hset u f hframe ?_
    rintro rfl
    exact hwithin.keep hholds hsector hlen hi
  cases hstep with
  | call u hat => exact hset u _ rfl fun hu => absurd (hu ▸ hat) hin
  | finish u hat hall =>
      refine hset u _ rfl ?_
      rintro rfl
      exact hwithin.out hin rfl rfl (by simp [Point.Holds])
  | clear u hat hmore hP =>
      refine hset u _ rfl ?_
      rintro rfl
      refine ⟨fun _ => hwithin.sector_eq hin, fun _ => hwithin.len_eq hin, fun _ => ?_⟩
      rw [← hwithin.len_eq hin]
      exact hmore
  | fillByte u hat hmore b => exact hkeep u _ rfl (by simp [hat, Point.Holds]) rfl rfl rfl
  | filled u hat hall => exact hkeep u _ rfl (by simp [hat, Point.Holds]) rfl rfl rfl
  | fillError u hat code => exact hkeep u _ rfl (by simp [hat, Point.Holds]) rfl rfl rfl
  | fillFailed u hat =>
      refine hset u _ rfl ?_
      rintro rfl
      exact hwithin.out hin rfl rfl (by simp [Point.Holds])
  | wregSect u hat => exact hkeep u _ rfl (by simp [hat, Point.Holds]) rfl rfl rfl
  | wregStat u hat => exact hkeep u _ rfl (by simp [hat, Point.Holds]) rfl rfl rfl
  | done u hat hP => exact hkeep u _ rfl (by simp [hat, Point.Holds]) rfl rfl rfl
  | readResult u hat => exact hkeep u _ rfl (by simp [hat, Point.Holds]) rfl rfl rfl
  | drainByte u hat hmore => exact hkeep u _ rfl (by simp [hat, Point.Holds]) rfl rfl rfl
  | drained u hat hall => exact hkeep u _ rfl (by simp [hat, Point.Holds]) rfl rfl rfl
  | drainError u hat code => exact hkeep u _ rfl (by simp [hat, Point.Holds]) rfl rfl rfl
  | clearing u hat =>
      refine hset u _ rfl ?_
      rintro rfl
      split
      · exact hwithin.out hin rfl rfl (by simp [Point.Holds])
      · exact hwithin.out hin rfl rfl (by simp [Point.Holds])
  | complete => exact hwithin
  | irq =>
      rw [LhdSoftc.lhdIrq]
      split
      · exact hwithin
      · exact hwithin

/-- The register of the sector is read when the operation starts. -/
theorem Step.sectors (hstep : Step s s') (hturn : Turn s) (hwithin : (s.frame t).Within first len)
    (hroom : first + len < 2 ^ 32) (hsectors : Sectors s t start first len) :
    Sectors s' t start first len := by
  cases hstep with
  | wregStat u hat =>
      intro operation hoperation hby hnumber
      cases hoperation with
      | tail _ hearlier => exact hsectors operation hearlier hby hnumber
      | head =>
          have hu : u = t := hby
          subst hu
          have hholds : (s.frame u).point.Holds := by simp [hat, Point.Holds]
          have hin : (s.frame u).point ≠ .returned := by simp [hat]
          obtain ⟨-, hstage, -⟩ := hturn.taken_by hholds
          simp only [Stage, hat] at hstage
          have hi := hwithin.turn hholds
          refine ⟨(s.frame u).i, hi, ?_⟩
          have hsect := hstage.2.2
          rw [hwithin.sector_eq hin, Nat.mod_eq_of_lt (by omega)] at hsect
          exact hsect
  | complete operation hpending code sectorData =>
      intro other hother hby hnumber
      exact hsectors other (List.mem_of_mem_erase hother) hby hnumber
  | irq =>
      rw [LhdSoftc.lhdIrq]
      split
      · exact hsectors
      · exact hsectors
  | _ => exact hsectors

/-- The sectors of a call. -/
theorem UntilReturn.sectors (hcall : UntilReturn t s s') (hturn : Turn s ∧ Past s)
    (hwithin : (s.frame t).Within first len) (hroom : first + len < 2 ^ 32)
    (hsectors : Sectors s t start first len) : Sectors s' t start first len := by
  have hinv : (Turn s' ∧ Past s') ∧ (s'.frame t).Within first len ∧
      Sectors s' t start first len := by
    refine invariant_of_steps (fun s => (Turn s ∧ Past s) ∧ (s.frame t).Within first len ∧
      Sectors s t start first len) hcall ⟨hturn, hwithin, hsectors⟩ ?_
    rintro before next ⟨hturn, hwithin, hsectors⟩ ⟨hin, hstep⟩
    exact ⟨⟨hstep.turn hturn.1 hturn.2, hstep.past hturn.1 hturn.2⟩, hstep.within hin hwithin,
      hstep.sectors hturn.1 hwithin hroom hsectors⟩
  exact hinv.2.2

/-- A call that has returned at once starts nothing. -/
theorem UntilReturn.eq_of_returned (hcall : UntilReturn t s s')
    (hout : (s.frame t).point = .returned) : s' = s := by
  cases hcall.cases_head with
  | inl heq => exact heq.symm
  | inr hfirst =>
      obtain ⟨_, ⟨hin, -⟩, -⟩ := hfirst
      exact absurd hout hin

end Steps

section Calls

variable {s : LhdSoftc} {t : Tid} {dBlocks : Nat} {uioRw : UioRw} {uioOffset : Int}
  {uioResid : Nat} {lhBuf : Bytes} {lhResult : Option Errno}

theorem Runs.dBlocks_eq (hrun : Runs (configLhd dBlocks lhBuf lhResult) s) :
    s.dBlocks = dBlocks := by
  refine invariant_of_steps (fun s => s.dBlocks = dBlocks) hrun rfl ?_
  intro before next hsame hstep
  cases hstep with
  | irq =>
      rw [LhdSoftc.lhdIrq]
      split
      · exact hsame
      · exact hsame
  | _ => exact hsame

theorem frame_called : (s.called t uioRw uioOffset uioResid).frame t =
    lhdIo s.dBlocks uioRw uioOffset uioResid (s.frame t) :=
  Function.update_self _ _ _

theorem keepsToDisk_of_refused (hpast : Past s) (hat : (s.frame t).point = .returned)
    (hrefused : uioOffset % LHD_SECTSIZE ≠ 0 ∨ uioResid % LHD_SECTSIZE ≠ 0 ∨
      s.dBlocks < (uioOffset / LHD_SECTSIZE + (uioResid : Int) / LHD_SECTSIZE) % 2 ^ 32) :
    KeepsToDisk s t uioRw uioOffset uioResid := by
  have hframe : (s.called t uioRw uioOffset uioResid).frame t =
      { s.frame t with result := some .EINVAL } := by
    rw [frame_called, lhdIo_refuses hrefused]
  have hout : ((s.called t uioRw uioOffset uioResid).frame t).point = .returned := by
    rw [hframe]
    exact hat
  refine .inl ⟨hout, by rw [hframe], ?_⟩
  rintro operation ⟨s', hcall, hpending, -, hnumber⟩
  rw [hcall.eq_of_returned hout] at hpending
  have hearlier := hpast.pending operation hpending
  omega

/-- Where the offset is not negative, the sum does not wrap. -/
theorem sectors_of_fits (hlow : 0 ≤ uioOffset) (hhigh : uioOffset < 2 ^ 31)
    (hresid : uioResid < 2 ^ 32) (hoffset : uioOffset % LHD_SECTSIZE = 0)
    (hend : (uioOffset / LHD_SECTSIZE + (uioResid : Int) / LHD_SECTSIZE) % 2 ^ 32 ≤ dBlocks) :
    ((u32 (uioOffset.tdiv LHD_SECTSIZE) : Nat) : Int) = uioOffset / LHD_SECTSIZE ∧
      u32 (uioOffset.tdiv LHD_SECTSIZE) + uioResid / LHD_SECTSIZE ≤ dBlocks := by
  have hsector := sector_eq hoffset
  generalize u32 (uioOffset.tdiv LHD_SECTSIZE) = first at hsector ⊢
  rw [show LHD_SECTSIZE = 512 from rfl] at *
  omega

/-- The sectors of a call that gets to the loop. -/
theorem Starts.sector (hstarts : Starts s t uioRw uioOffset uioResid operation)
    (hturn : Turn s) (hpast : Past s) (hat : (s.frame t).point = .returned)
    (hoffset : uioOffset % LHD_SECTSIZE = 0) (haligned : uioResid % LHD_SECTSIZE = 0)
    (hend : (uioOffset / LHD_SECTSIZE + (uioResid : Int) / LHD_SECTSIZE) % 2 ^ 32 ≤ s.dBlocks)
    (hroom : u32 (uioOffset.tdiv LHD_SECTSIZE) + uioResid / LHD_SECTSIZE < 2 ^ 32) :
    ∃ i < uioResid / LHD_SECTSIZE,
      operation.sector = u32 (uioOffset.tdiv LHD_SECTSIZE) + i := by
  obtain ⟨s', hcall, hpending, hby, hnumber⟩ := hstarts
  have hstep : Step s (s.called t uioRw uioOffset uioResid) :=
    .call t hat uioRw uioOffset uioResid
  have hwithin : ((s.called t uioRw uioOffset uioResid).frame t).Within
      (u32 (uioOffset.tdiv LHD_SECTSIZE)) (uioResid / LHD_SECTSIZE) := by
    rw [frame_called, lhdIo_enters hoffset haligned hend]
    exact ⟨fun _ => rfl, fun _ => rfl, fun hholds => hholds.elim⟩
  have hnone : Sectors (s.called t uioRw uioOffset uioResid) t s.started
      (u32 (uioOffset.tdiv LHD_SECTSIZE)) (uioResid / LHD_SECTSIZE) := by
    intro earlier hearlier _ hlate
    have hnumber := hpast.pending earlier hearlier
    omega
  exact hcall.sectors ⟨hstep.turn hturn hpast, hstep.past hturn hpast⟩ hwithin hroom hnone
    operation hpending hby hnumber

end Calls

/-! A call that gets to the device. -/

section Starting

variable {s : LhdSoftc} {t : Tid}

/-- The buffer is filled, byte after byte. -/
theorem fills (n : Nat) (hat : (s.frame t).point = .filling)
    (hroom : (s.frame t).moved.length + n ≤ LHD_SECTSIZE) :
    ∃ s', UntilReturn t s s' ∧ s'.started = s.started ∧
      s'.frame t = { s.frame t with moved := (s.frame t).moved ++ List.replicate n 0 } := by
  induction n with
  | zero => exact ⟨s, .refl, rfl, by simp⟩
  | succ n ih =>
      obtain ⟨mid, hrun, hstarted, hframe⟩ := ih (by omega)
      have hpoint : (mid.frame t).point = .filling := by rw [hframe, hat]
      have hmore : (mid.frame t).moved.length < LHD_SECTSIZE := by
        rw [hframe, List.length_append, List.length_replicate]
        omega
      refine ⟨mid.fillByte t 0, hrun.tail ⟨by rw [hpoint]; decide, .fillByte t hpoint hmore 0⟩,
        hstarted, ?_⟩
      have hafter : (mid.fillByte t 0).frame t =
          { mid.frame t with moved := (mid.frame t).moved ++ [0] } :=
        Function.update_self _ _ _
      rw [hafter, hframe, List.append_assoc, ← List.replicate_succ']

/-- A thread that the disk is free for gets to the write of the sector's register. -/
theorem reaches_wregSect (hat : (s.frame t).point = .turn) (hmore : (s.frame t).i < (s.frame t).len)
    (hP : 0 < s.lhClear) :
    ∃ s', UntilReturn t s s' ∧ s'.started = s.started ∧ (s'.frame t).point = .wregSect ∧
      (s'.frame t).sector = (s.frame t).sector ∧ (s'.frame t).i = (s.frame t).i := by
  have hclear : UntilReturn t s (s.cleared t) :=
    .single ⟨by rw [hat]; decide, .clear t hat hmore hP⟩
  have hframe : (s.cleared t).frame t = { s.frame t with
      moved := []
      point := if (s.frame t).uioRw = UioRw.UIO_WRITE then .filling else .wregSect } :=
    Function.update_self _ _ _
  cases hrw : (s.frame t).uioRw with
  | UIO_READ =>
      rw [hrw, if_neg (by decide)] at hframe
      exact ⟨_, hclear, rfl, by rw [hframe], by rw [hframe], by rw [hframe]⟩
  | UIO_WRITE =>
      rw [hrw, if_pos rfl] at hframe
      have hpoint : ((s.cleared t).frame t).point = .filling := by rw [hframe]
      obtain ⟨mid, hfill, hstarted, hfilled⟩ := fills LHD_SECTSIZE hpoint (by rw [hframe]; simp)
      have hfull : (mid.frame t).point = .filling := by rw [hfilled, hpoint]
      have hall : (mid.frame t).moved.length = LHD_SECTSIZE := by
        rw [hfilled, hframe]
        simp
      have hafter : (mid.moveEnds t none .wregSect).frame t =
          { mid.frame t with result := none, point := .wregSect } :=
        Function.update_self _ _ _
      refine ⟨_, (hclear.trans hfill).tail ⟨by rw [hfull]; decide, .filled t hfull hall⟩,
        hstarted, by rw [hafter], ?_, ?_⟩
      · rw [hafter, hfilled, hframe]
      · rw [hafter, hfilled, hframe]

/-- It starts an operation on its sector. -/
theorem reaches_operation (hat : (s.frame t).point = .turn)
    (hmore : (s.frame t).i < (s.frame t).len) (hP : 0 < s.lhClear) :
    ∃ s', UntilReturn t s s' ∧ ∃ operation ∈ s'.pending, operation.number = s.started ∧
      operation.startedBy = t ∧
      operation.sector = ((s.frame t).sector + (s.frame t).i) % 2 ^ 32 := by
  obtain ⟨mid, hrun, hstarted, hpoint, hsector, hi⟩ := reaches_wregSect hat hmore hP
  have hafter : (mid.wregSect t).frame t = { mid.frame t with point := .wregStat } :=
    Function.update_self _ _ _
  have hpoint' : ((mid.wregSect t).frame t).point = .wregStat := by rw [hafter]
  have hsect := hrun.tail ⟨by rw [hpoint]; decide, .wregSect t hpoint⟩
  refine ⟨_, hsect.tail ⟨by rw [hpoint']; decide, .wregStat t hpoint'⟩, _, .head _, hstarted, rfl,
    ?_⟩
  rw [← hsector, ← hi]
  rfl

variable {dBlocks : Nat} {uioRw : UioRw} {uioOffset : Int} {uioResid : Nat} {lhBuf : Bytes}
  {lhResult : Option Errno}

/-- The first call gets past both checks and starts an operation. -/
theorem starts_of_enters (hoffset : uioOffset % LHD_SECTSIZE = 0)
    (haligned : uioResid % LHD_SECTSIZE = 0) (hresid : uioResid ≠ 0)
    (hend : (uioOffset / LHD_SECTSIZE + (uioResid : Int) / LHD_SECTSIZE) % 2 ^ 32 ≤ dBlocks)
    (t : Tid) :
    ∃ operation, Starts (configLhd dBlocks lhBuf lhResult) t uioRw uioOffset uioResid operation ∧
      (operation.sector : Int) = uioOffset / LHD_SECTSIZE % 2 ^ 32 := by
  have hframe : (LhdSoftc.called (configLhd dBlocks lhBuf lhResult) t uioRw uioOffset
      uioResid).frame t = _ := frame_called.trans (lhdIo_enters hoffset haligned hend)
  have hmore : 0 < uioResid / LHD_SECTSIZE := by
    rw [show LHD_SECTSIZE = 512 from rfl] at *
    omega
  obtain ⟨s', hcall, operation, hpending, hnumber, hby, hsector⟩ := reaches_operation
    (by rw [hframe]) (by rw [hframe]; exact hmore) (show 0 < 1 by decide)
  refine ⟨operation, ⟨s', hcall, hpending, hby, Nat.le_of_eq hnumber.symm⟩, ?_⟩
  have hfirst := sector_eq hoffset
  rw [hframe] at hsector
  have hsector' : operation.sector = (u32 (uioOffset.tdiv LHD_SECTSIZE) + 0) % 2 ^ 32 := hsector
  omega

/-- A negative offset that gets past both checks. -/
theorem not_keepsToDisk_of_negative (hlow : -2 ^ 31 ≤ uioOffset) (hneg : uioOffset < 0)
    (hhigh : uioResid < 2 ^ 32) (hoffset : uioOffset % LHD_SECTSIZE = 0)
    (haligned : uioResid % LHD_SECTSIZE = 0) (hresid : uioResid ≠ 0)
    (hend : (uioOffset / LHD_SECTSIZE + (uioResid : Int) / LHD_SECTSIZE) % 2 ^ 32 ≤ dBlocks)
    (t : Tid) :
    ¬ KeepsToDisk (configLhd dBlocks lhBuf lhResult) t uioRw uioOffset uioResid := by
  obtain ⟨operation, hstarts, hsector⟩ := starts_of_enters hoffset haligned hresid hend t
  rintro (⟨-, -, hnone⟩ | hall)
  · exact hnone operation hstarts
  · obtain ⟨-, i, hi, hfor⟩ := hall operation hstarts
    rw [show LHD_SECTSIZE = 512 from rfl] at *
    omega

end Starting

/-- Exactly the negative offsets that get past both checks make `lhd_io` leave the disk. -/
theorem lhd_keeps_to_disk_iff {dBlocks : Nat} {uioOffset : Int} {uioResid : Nat}
    (hblocks : dBlocks < 2 ^ 32) (hlow : -2 ^ 31 ≤ uioOffset) (hhigh : uioOffset < 2 ^ 31)
    (hresid : uioResid < 2 ^ 32) (uioRw : UioRw) :
    (∀ lhBuf lhResult s t, Runs (configLhd dBlocks lhBuf lhResult) s →
      (s.frame t).point = .returned → KeepsToDisk s t uioRw uioOffset uioResid) ↔
        Caught dBlocks uioOffset uioResid := by
  constructor
  · intro hkeeps
    by_contra hmissed
    simp only [Caught, not_or, not_not, not_le, not_lt] at hmissed
    obtain ⟨hneg, hoffset, haligned, hsome, hend⟩ := hmissed
    exact not_keepsToDisk_of_negative hlow hneg hresid hoffset haligned hsome hend 0
      (hkeeps (fun _ => 0) none _ 0 .refl rfl)
  · intro hcaught lhBuf lhResult s t hrun hat
    obtain ⟨hturn, hpast⟩ := hrun.turn
    have hsize := hrun.dBlocks_eq
    by_cases hrefused : uioOffset % LHD_SECTSIZE ≠ 0 ∨ uioResid % LHD_SECTSIZE ≠ 0 ∨
        s.dBlocks < (uioOffset / LHD_SECTSIZE + (uioResid : Int) / LHD_SECTSIZE) % 2 ^ 32
    · exact keepsToDisk_of_refused hpast hat hrefused
    · simp only [not_or, not_not, not_lt] at hrefused
      obtain ⟨hoffset, haligned, hend⟩ := hrefused
      refine .inr fun operation hstarts => ?_
      by_cases hnonneg : 0 ≤ uioOffset
      · obtain ⟨hfirst, hsum⟩ := sectors_of_fits hnonneg hhigh hresid hoffset hend
        obtain ⟨i, hi, hsector⟩ :=
          hstarts.sector hturn hpast hat hoffset haligned hend (by omega)
        refine ⟨by omega, i, hi, ?_⟩
        rw [hsector, Int.natCast_add, hfirst]
      · have hnothing : uioResid = 0 := by
          rcases hcaught with hcase | hcase | hcase | hcase | hcase
          · exact absurd hcase hnonneg
          · exact absurd hoffset hcase
          · exact absurd haligned hcase
          · exact hcase
          · omega
        subst hnothing
        obtain ⟨i, hi, -⟩ := hstarts.sector hturn hpast hat hoffset haligned hend (u32_lt _)
        exact absurd hi (Nat.not_lt_zero i)

/-- One sector from the second on, of sixteen. -/
theorem lhd_keeps_to_disk_second_sector :
    Caught 16 512 512 ∧
      (∀ lhBuf lhResult s t, Runs (configLhd 16 lhBuf lhResult) s →
        (s.frame t).point = .returned → KeepsToDisk s t .UIO_READ 512 512) :=
  ⟨.inl (by decide), (lhd_keeps_to_disk_iff (by decide) (by decide) (by decide) (by decide) .UIO_READ).mpr
    (.inl (by decide))⟩

/-- The sector before the first one: the sum wraps to 0, and the disk of sixteen sectors is
asked for the last one of 2^32. -/
theorem lhd_keeps_to_disk_before_first :
    (∃ operation, Starts (configLhd 16 (fun _ => 0) none) 0 .UIO_READ (-512) 512 operation ∧
      (operation.sector : Int) = 4294967295) ∧
    ¬ KeepsToDisk (configLhd 16 (fun _ => 0) none) 0 .UIO_READ (-512) 512 :=
  ⟨starts_of_enters (by decide) (by decide) (by decide) (by decide) 0,
    not_keepsToDisk_of_negative (by decide) (by decide) (by decide) (by decide) (by decide)
      (by decide) (by decide) 0⟩

end OS161.Dev.Lhd
