import OS161.Data.FirstFit
import OS161.VM.Kpages
import OS161.VM.RegionMap

namespace OS161.VM.Machine

open OS161.Data
open OS161.Kern
open OS161.Lib

/-! Frames in a row: `getppages` takes the lowest run of clear frames that is long
enough. -/

variable {m m' : Machine} {start frames npages index : Nat}

/-- The frames whose bit in `gbl_bmp` is clear. -/
def clearFrames (m : Machine) (i : Nat) : Bool := !m.gblBmp.bitmapIsset i

theorem scanFree_eq (m : Machine) (npages turns i count : Nat) :
    m.scanFree npages turns i count = scanRun m.clearFrames npages turns i count := by
  induction turns generalizing i count with
  | zero => rfl
  | succ turns ih =>
      rw [Machine.scanFree, scanRun, ih, ih]
      cases hbit : m.gblBmp.bitmapIsset i with
      | false => simp [clearFrames, hbit]
      | true => simp [clearFrames, hbit]

/-- The first bit is set, so the count that was never set is not looked at. -/
theorem Framed.scan (hframed : m.Framed start frames) (hframes : 0 < frames) (hpos : 0 < npages)
    (unset : Nat) :
    ((m.scanFree npages m.maxPageNum 0 unset).2 = npages ∧
      npages ≤ (m.scanFree npages m.maxPageNum 0 unset).1 + 1 ∧
      LowestRun m.clearFrames npages frames
        ((m.scanFree npages m.maxPageNum 0 unset).1 + 1 - npages)) ∨
    ((m.scanFree npages m.maxPageNum 0 unset).2 ≠ npages ∧
      ∀ s, s + npages ≤ frames → ¬ FreeRun m.clearFrames npages s) := by
  have hzero : m.clearFrames 0 = false := by
    simp [clearFrames, hframed.reserved 0 (by decide)]
  obtain ⟨turns, rfl⟩ : ∃ turns, frames = 1 + turns := ⟨frames - 1, by omega⟩
  have hfirst : m.scanFree npages m.maxPageNum 0 unset =
      scanRun m.clearFrames npages turns 1 0 := by
    rw [scanFree_eq, hframed.maxPageNum, Nat.add_comm, scanRun, hzero]
    rfl
  rw [hfirst]
  exact (scanning_after hpos hzero).scanRun

/-- After `turns` turns of the loop that takes the run. -/
structure TookRun (m : Machine) (index turns : Nat) (m' : Machine) : Prop where
  memStart : m'.memStart = m.memStart
  nbits : m'.gblBmp.nbits = m.gblBmp.nbits
  bits : ∀ k, m'.gblBmp.bitmapIsset k = true ↔
    m.gblBmp.bitmapIsset k = true ∨ index ≤ k ∧ k < index + turns
  pa : ∀ k, (m'.coremap k).pa = (m.coremap k).pa

section Take

variable (hroom : start + frames * PAGE_SIZE ≤ 2 ^ 32)

include hroom

theorem TookRun.takeFrame (hframed : m.Framed start frames) (hge : 3 ≤ index)
    (hlt : index + i < frames) (hclear : m.gblBmp.bitmapIsset (index + i) = false)
    (htook : TookRun m index i m') :
    (takeFrame index i).Returns (fun _ m'' => TookRun m index (i + 1) m'') m' := by
  have hbit : m'.gblBmp.bitmapIsset (index + i) = false := by
    rw [Bool.eq_false_iff, Ne, htook.bits, hclear]
    simp
  have hpa : (m'.coremap (index + i)).pa = start + (index + i) * PAGE_SIZE :=
    (htook.pa _).trans (hframed.pa _ (by omega) hlt)
  have hstart : m'.memStart = start := htook.memStart.trans hframed.memStart
  simp only [Machine.takeFrame, onGblBmp, Prog.Returns, ↓Prog.wp_bind, ↓Prog.wp_zoom,
    Bitmap.wp_bitmapMark]
  rw [if_pos (by rw [htook.nbits, hframed.bits]; exact hlt), if_pos hbit]
  have htaken : Taken start frames (start + (index + i) * PAGE_SIZE) (index + i)
      { m' with gblBmp := m'.gblBmp.mark (index + i) } := by
    refine ⟨by omega, hlt, rfl, ?_⟩
    simp [Bitmap.isset_mark]
  simp only [↓Prog.wp_get, hpa]
  rw [wp_ptInsert (m := { m' with gblBmp := m'.gblBmp.mark (index + i) })
    (htaken.ptIndex hroom hstart) htaken.marked]
  refine ⟨htook.memStart, htook.nbits, ?_, ?_⟩
  · intro k
    simp only [inserted, Bitmap.isset_mark, Bool.or_eq_true, htook.bits, decide_eq_true_eq]
    rw [or_assoc]
    apply or_congr_right
    omega
  · intro k
    refine (pa_update ?_ k).trans (htook.pa k)
    exact hpa.symm

theorem takeRun_returns (hframed : m.Framed start frames)
    (hlow : LowestRun m.clearFrames npages frames index) (hge : 3 ≤ index) :
    (Prog.forFrom (fun i _ => takeFrame index i) npages 0 ()).Returns
      (fun _ m' => TookRun m index npages m') m := by
  obtain ⟨⟨hfits, hrun⟩, -⟩ := hlow
  refine Prog.wp_mono (Prog.wp_forFrom (fun i _ m' => TookRun m index i m') ?_ ?_) ?_
    (fun _ _ h => h) (fun _ h => h)
  · intro i _ m' _ hi htook
    have hclear := hrun (index + i) (by omega) (by omega)
    rw [clearFrames, Bool.not_eq_true'] at hclear
    exact htook.takeFrame hroom hframed hge (by omega) hclear
  · refine ⟨rfl, rfl, ?_, fun _ => rfl⟩
    intro k
    constructor
    · exact Or.inl
    · rintro (hset | hnone)
      · exact hset
      · omega
  · intro _ m' htook
    rwa [Nat.zero_add] at htook

end Take

/-- `getppages` has handed out the lowest run. -/
structure GotRun (m : Machine) (frames npages index pa : Nat) (m' : Machine) : Prop where
  lowest : LowestRun m.clearFrames npages frames index
  marks : ∀ k, m'.gblBmp.bitmapIsset k = true ↔
    m.gblBmp.bitmapIsset k = true ∨ index ≤ k ∧ k < index + npages
  address : pa = (m.coremap index).pa
  npages : (m'.coremap index).npages = npages

/-- A request for more than one frame gets the lowest run of clear frames that is long
enough, and changes nothing where there is none. -/
theorem getppages_first_fit (hframed : m.Framed start frames) (hframes : 3 ≤ frames)
    (haligned : start % PAGE_SIZE = 0) (hroom : start + frames * PAGE_SIZE ≤ 2 ^ 32)
    (hpages : 2 ≤ npages) (unset : Unset) :
    (getppages npages unset).Returns (fun pa m' =>
      (∀ s, s + npages ≤ frames → ¬ FreeRun m.clearFrames npages s) ∧ pa = 0 ∧ m' = m ∨
      ∃ index, GotRun m frames npages index pa m') m := by
  have hscan := hframed.scan (by omega) (show 0 < npages by omega) unset.count
  simp only [getppages, setCoremap, Prog.Returns, ↓Prog.wp_bind, ↓Prog.wp_assert,
    ↓Prog.wp_ite, ↓Prog.wp_get]
  rw [if_pos (by omega), if_neg (by omega)]
  rcases hscan with ⟨hfound, hcount, hlow⟩ | ⟨hfew, hnone⟩
  case inr =>
    rw [if_pos hfew]
    exact Or.inl ⟨hnone, rfl, rfl⟩
  case inl =>
    rw [if_neg (not_not.mpr hfound), hfound]
    generalize (m.scanFree npages m.maxPageNum 0 unset.count).1 + 1 - npages = index at hlow ⊢
    have hge : 3 ≤ index := by
      by_contra hlt
      have hclear := hlow.1.2 index (Nat.le_refl index) (by omega)
      rw [clearFrames, hframed.reserved index (by omega)] at hclear
      cases hclear
    refine Prog.wp_mono (takeRun_returns hroom hframed hlow hge) ?_ (fun _ _ h => h)
      (fun _ h => h)
    intro _ m' htook
    have hfits := hlow.1.1
    have hpa : (m.coremap index).pa = start + index * PAGE_SIZE :=
      hframed.pa index hge (by omega)
    refine Or.inr ⟨index, hlow, htook.bits, ?_, by simp⟩
    simp only [Function.update_self, htook.pa, hpa]
    simp only [pageFrame, PAGE_SIZE] at haligned ⊢
    omega

/-- Eight frames, of which those with the indices 0, 1, 2 and 4 are taken. -/
private def fragmented : Machine :=
  { spacious (twoRegions 0 0 0 0) (fun _ => 0) with
    gblBmp := ⟨8, fun _ => 0x17⟩
    maxPageNum := 8 }

private theorem fragmented_framed : fragmented.Framed 4096 8 where
  memStart := rfl
  maxPageNum := rfl
  bits := rfl
  reserved := by decide
  pa _ _ _ := rfl

/-- Two frames are asked for, with a count left over in the local variable. -/
theorem getppages_first_fit_gap :
    (getppages 2 ⟨0, 2⟩ fragmented).returned = some 0x6000 ∧
    (getppages 2 ⟨0, 2⟩).Returns (fun pa m' =>
      (∀ s, s + 2 ≤ 8 → ¬ FreeRun fragmented.clearFrames 2 s) ∧ pa = 0 ∧ m' = fragmented ∨
      ∃ index, GotRun fragmented 8 2 index pa m') fragmented :=
  ⟨by decide, getppages_first_fit fragmented_framed (by decide) (by decide) (by decide)
    (by decide) ⟨0, 2⟩⟩

end OS161.VM.Machine
