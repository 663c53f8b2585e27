import OS161.VM.FrameOwnership
import OS161.VM.Kpages

namespace OS161.VM.Machine

open OS161.Data
open OS161.Kern
open OS161.Lib

/-! The `locked` flags of frames that are not in use. -/

/-- No frame is locked that nobody holds. -/
def Unpinned (m : Machine) : Prop :=
  ∀ i < m.gblBmp.nbits, m.gblBmp.bitmapIsset i = false → (m.coremap i).locked = false

/-- One call that comes back, or what happens elsewhere. -/
inductive PinEvent where
  | vmFault (faulttype : FaultType) (address : Nat)
  | evict (vaddr : Nat)
  | swapIn (vaddr slot : Nat)
  | allocKpages (npages : Nat) (unset : Unset)
  | freeKpages (addr : Nat)
  | asDestroy (a : AsId) (pages : AsPages) (rest : Addrspace)
  | elsewhere

inductive PinStep : Machine → PinEvent → Machine → Prop where
  | vmFault (hmiss : m.translate address = none)
      (hdone : vmFault depth faulttype address m = .ok () m') :
      PinStep m (.vmFault faulttype address) m'
  | vmFaultError (hmiss : m.translate address = none)
      (hdone : vmFault depth faulttype address m = .error code m') :
      PinStep m (.vmFault faulttype address) m'
  | evict (hdone : evict (kernelTouch depth) vaddr m = .ok done m') :
      PinStep m (.evict vaddr) m'
  | swapIn (hdone : swapIn (kernelTouch depth) vaddr slot m = .ok done m') :
      PinStep m (.swapIn vaddr slot) m'
  | allocKpages (hdone : allocKpages npages unset m = .ok a m') :
      PinStep m (.allocKpages npages unset) m'
  | freeKpages (hdone : freeKpages addr m = .ok () m') : PinStep m (.freeKpages addr) m'
  | asDestroy (hdone : asDestroy a pages rest m = .ok () m') :
      PinStep m (.asDestroy a pages rest) m'
  | elsewhere (hbits : m'.gblBmp = m.gblBmp) (hcoremap : m'.coremap = m.coremap) :
      PinStep m .elsewhere m'

/-- The frames that the call gives back are not locked, and the page tables agree
with the coremap where the call works on them. -/
def PinEvent.Unlocks (m : Machine) : PinEvent → Prop
  | .vmFault _ _ => m.Sound m.tVmspace
  | .evict _ => m.Sound m.tVmspace ∧ (m.coremap m.findFifo).locked = false
  | .swapIn _ slot => m.Sound m.tVmspace ∧ ∀ index, m.gblBmp.Lowest index →
      (m.coremap index).addr = (m.swapHolder slot).addr
  | .allocKpages _ _ => True
  | .freeKpages addr =>
      (m.coremap (m.findVa addr (m.maxPageNum - 3) 3)).va = addr →
        (m.coremap (m.findVa addr (m.maxPageNum - 3) 3)).locked = false
  | .asDestroy a pages _ =>
      ∀ i, m.Names a i ∨ pages.Has (m.coremap i).va → (m.coremap i).locked = false
  | .elsewhere => True

/-- A step that meets the condition. -/
def UnlockingStep (m m' : Machine) : Prop :=
  ∃ event, PinStep m event m' ∧ event.Unlocks m

variable {m m' : Machine} {cur : Option AsId} {index : Nat}

/-! Steps that take frames. -/

/-- Marks come, and flags stay. -/
structure Grows (m m' : Machine) : Prop where
  nbits : m'.gblBmp.nbits = m.gblBmp.nbits
  marked : ∀ i, m.gblBmp.bitmapIsset i = true → m'.gblBmp.bitmapIsset i = true
  locked : ∀ i, (m'.coremap i).locked = (m.coremap i).locked

theorem Grows.refl (m : Machine) : Grows m m :=
  ⟨rfl, fun _ h => h, fun _ => rfl⟩

theorem Grows.trans {m₁ m₂ m₃ : Machine} (hfirst : Grows m₁ m₂) (hsecond : Grows m₂ m₃) :
    Grows m₁ m₃ :=
  ⟨hsecond.nbits.trans hfirst.nbits, fun i h => hsecond.marked i (hfirst.marked i h),
    fun i => (hsecond.locked i).trans (hfirst.locked i)⟩

theorem Grows.clear (hgrows : Grows m m') (hclear : m'.gblBmp.bitmapIsset i = false) :
    m.gblBmp.bitmapIsset i = false := by
  by_contra hset
  rw [Bool.not_eq_false] at hset
  rw [hgrows.marked i hset] at hclear
  cases hclear

theorem Unpinned.grows (hunpinned : m.Unpinned) (hgrows : Grows m m') : m'.Unpinned := by
  intro i hi hclear
  rw [hgrows.nbits] at hi
  rw [hgrows.locked]
  exact hunpinned i hi (hgrows.clear hclear)

theorem locked_update {coremap : Nat → PageTableEntry} {e : PageTableEntry}
    (hlocked : e.locked = (coremap index).locked) (i : Nat) :
    (Function.update coremap index e i).locked = (coremap i).locked := by
  by_cases heq : i = index
  · rw [heq, Function.update_self, hlocked]
  · rw [Function.update_of_ne heq]

theorem grows_mark (m : Machine) (index : Nat) :
    Grows m { m with gblBmp := m.gblBmp.mark index } := by
  refine ⟨rfl, ?_, fun _ => rfl⟩
  intro i hset
  simp only [Bitmap.isset_mark, hset, Bool.true_or]

theorem grows_took (m : Machine) (index : Nat) : Grows m (m.took index) := by
  refine ⟨rfl, ?_, ?_⟩
  · intro i hset
    simp only [took, Bitmap.isset_mark, hset, Bool.true_or]
  · intro i
    refine locked_update ?_ i
    rfl

theorem ptInsert_grows (m₀ : Machine) (hgrows : Grows m₀ m) (vaddr paddr : Nat) :
    Prog.wp (ptInsert vaddr paddr) (fun _ m' => Grows m₀ m') (fun _ _ => False)
      (fun _ => True) m := by
  simp only [ptInsert, setCoremap, onGblBmp, ↓Prog.wp_bind, ↓Prog.wp_get, ↓Prog.wp_modify,
    ↓Prog.wp_when, ↓Prog.wp_zoom, Bitmap.wp_bitmapMark]
  have hwritten : Grows m { m with
      coremap := Function.update m.coremap ((paddr + 2 ^ 32 - m.memStart) % 2 ^ 32 / PAGE_SIZE)
        { m.coremap ((paddr + 2 ^ 32 - m.memStart) % 2 ^ 32 / PAGE_SIZE) with
          va := vaddr, pa := paddr, valid := true, time := m.ref, addr := m.tVmspace }
      ref := (m.ref + 1) % 2 ^ 32 } :=
    ⟨rfl, fun _ h => h, locked_update rfl⟩
  split
  case isFalse => exact hgrows.trans hwritten
  case isTrue =>
  split
  case isFalse => trivial
  case isTrue => exact (hgrows.trans hwritten).trans (grows_mark _ _)

theorem getSinglepage_grows (m : Machine) :
    Prog.wp getSinglepage (fun _ m' => Grows m m') (fun _ _ => False) (fun _ => True) m := by
  apply getSinglepage_wp trivial
  · intro _
    exact Grows.refl m
  · intro index _ _
    exact grows_took m index

theorem grows_npages (m : Machine) (index npages : Nat) :
    Grows m { m with
      coremap := Function.update m.coremap index { m.coremap index with npages := npages } } :=
  ⟨rfl, fun _ h => h, locked_update rfl⟩

theorem allocKpages_grows (m : Machine) (npages : Nat) (unset : Unset) :
    Prog.wp (allocKpages npages unset) (fun _ m' => Grows m m') (fun _ _ => False)
      (fun _ => True) m := by
  simp only [allocKpages, getppages, ↓Prog.wp_bind, ↓Prog.wp_assert, ↓Prog.wp_ite,
    ↓Prog.wp_get, ↓Prog.wp_pure, setCoremap, ↓Prog.wp_modify]
  split
  case isFalse => trivial
  case isTrue =>
  split
  case isTrue =>
      refine Prog.wp_mono (getSinglepage_grows m) ?_ (fun _ _ h => h) (fun _ h => h)
      intro r m₁ hgrows
      have hwritten (index : Nat) := hgrows.trans (grows_npages m₁ index npages)
      generalize (if r.1 = 0 ∧ r.2 = 0 then unset.index else r.2) = index
      split
      case isFalse => trivial
      case isTrue =>
      split
      case isTrue =>
          split
          · exact hwritten index
          · exact hwritten index
      case isFalse =>
          refine Prog.wp_mono (ptInsert_grows m (hwritten index) _ _) ?_ (fun _ _ h => h)
            (fun _ h => h)
          intro _ m' hgrows'
          split
          · exact hgrows'
          · exact hgrows'
  case isFalse =>
  split
  case isTrue =>
      split
      · exact Grows.refl m
      · exact Grows.refl m
  case isFalse =>
      refine Prog.wp_mono (Prog.wp_forFrom (fun _ _ m' => Grows m m') ?_ (Grows.refl m)) ?_
        (fun _ _ h => h) (fun _ h => h)
      · intro i _ m₁ _ _ hgrows
        simp only [takeFrame, onGblBmp, ↓Prog.wp_bind, ↓Prog.wp_zoom, ↓Prog.wp_get,
          Bitmap.wp_bitmapMark]
        split
        case isFalse => trivial
        case isTrue =>
        split
        case isFalse => trivial
        case isTrue => exact ptInsert_grows m (hgrows.trans (grows_mark m₁ _)) _ _
      · intro _ m₁ hgrows
        have hwritten (index : Nat) := hgrows.trans (grows_npages m₁ index npages)
        split
        · exact hwritten _
        · exact hwritten _

theorem makeTable_grows (m : Machine) (a : AsId) (va : Nat) :
    Prog.wp (makeTable a va) (fun _ m' => Grows m m') (fun _ _ => False) (fun _ => True) m := by
  simp only [makeTable, kmallocTable, setAddrspace, ↓Prog.wp_bind, ↓Prog.wp_get,
    ↓Prog.wp_when, ↓Prog.wp_modify, ↓Prog.wp_pure]
  split
  case isFalse => exact Grows.refl m
  case isTrue =>
      refine Prog.wp_mono (getSinglepage_grows m) ?_ (fun _ _ h => h) (fun _ h => h)
      intro r m₁ hgrows
      simp only [↓Prog.wp_assert, setCoremap, ↓Prog.wp_modify]
      split
      case isFalse => trivial
      case isTrue =>
          refine Prog.wp_mono (ptInsert_grows m (hgrows.trans (grows_npages m₁ r.2 1)) _ _) ?_
            (fun _ _ h => h) (fun _ h => h)
          intro _ m' hgrows'
          exact ⟨hgrows'.nbits, hgrows'.marked, hgrows'.locked⟩

theorem giveFrame_grows (m : Machine) (a : AsId) (fa temp index : Nat) :
    Prog.wp (giveFrame a fa temp index) (fun _ m' => Grows m m') (fun _ _ => False)
      (fun _ => True) m := by
  simp only [giveFrame, setCoremap, ↓Prog.wp_bind, ↓Prog.wp_modify, wp_writePte]
  split
  case isFalse => trivial
  case isTrue =>
      apply ptInsert_grows
      exact ⟨rfl, fun _ h => h, locked_update rfl⟩

/-! The fault handler.  While it makes room for a page the frame that it cleared
may be locked, but then no other is clear. -/

def OneClear (m : Machine) : Prop :=
  ∃ frame, ∀ i < m.gblBmp.nbits, m.gblBmp.bitmapIsset i = false → i = frame

theorem OneClear.grows (hone : m.OneClear) (hgrows : Grows m m') : m'.OneClear := by
  obtain ⟨frame, hframe⟩ := hone
  refine ⟨frame, ?_⟩
  intro i hi hclear
  rw [hgrows.nbits] at hi
  exact hframe i hi (hgrows.clear hclear)

theorem Full.unpinned (hfull : m.Full) : m.Unpinned := by
  intro i hi hclear
  rw [hfull i hi] at hclear
  cases hclear

/-- Taking the one clear frame leaves none. -/
theorem unpinned_took (hpins : m.Unpinned ∨ m.OneClear) (hlowest : m.gblBmp.Lowest index)
    (hlt : index < m.gblBmp.nbits) : (m.took index).Unpinned := by
  cases hpins with
  | inl hunpinned => exact hunpinned.grows (grows_took m index)
  | inr hone =>
      obtain ⟨frame, hframe⟩ := hone
      have hindex := hframe index hlt hlowest.clear
      apply Full.unpinned
      intro i hi
      by_contra hclear
      rw [Bool.not_eq_true] at hclear
      have heq := hframe i hi ((grows_took m index).clear hclear)
      rw [heq, ← hindex, took, Bitmap.isset_mark, decide_eq_true rfl, Bool.or_true] at hclear
      cases hclear

theorem Full.oneClear_evicted (hfull : m.Full) (slot : Nat) (a : AsId) :
    (m.evicted slot a).OneClear := by
  refine ⟨m.findFifo, ?_⟩
  intro i hi hclear
  by_contra hne
  have hset : m.gblBmp.bitmapIsset i = true := hfull i hi
  simp only [evicted, Bitmap.isset_unmark, hset, Bool.true_and, decide_eq_false_iff_not] at hclear
  exact hclear hne

/-- The frame that an entry of a table names is in use. -/
theorem Sound.marked (hsound : m.Sound cur) (hentry : m.pte a (pageFrame va) = some entry)
    (heven : entry.tmod 2 ≠ 1) (hindex : entry.tdiv 2 = (index : Int)) :
    m.gblBmp.bitmapIsset index = true := by
  by_cases hzero : index = 0
  · rw [hzero]
    exact hsound.reserved 0 (by decide)
  · have hsplit := Int.mul_tdiv_add_tmod entry 2
    have hlow := Int.lt_tmod_of_pos entry (show (0 : Int) < 2 by decide)
    have hhigh := Int.tmod_lt_of_pos entry (show (0 : Int) < 2 by decide)
    have hnonneg := @Int.tmod_nonneg entry 2 (by omega)
    have hdouble : entry = (index : Int) * 2 := by
      omega
    have hres : m.Resident a (pageFrame va) index := by
      refine ⟨by simp [pageFrame], by omega, ?_⟩
      rw [hentry, hdouble]
    obtain ⟨n, hn, howns⟩ := hsound.resident a (pageFrame va) index hres
    obtain rfl : index = n := by omega
    exact howns.marked

theorem loadPage_pins (as : Addrspace) (a : AsId) (va : Nat) (hsound : m.Sound cur)
    (heven : m.EvenEntry a (pageFrame va)) :
    Prog.wp (loadPage as a (pageFrame va))
      (fun _ m' => m'.gblBmp = m.gblBmp ∧ ∀ i, m.gblBmp.bitmapIsset i = false →
        (m'.coremap i).locked = (m.coremap i).locked)
      (fun _ m' => m'.gblBmp = m.gblBmp ∧ ∀ i, m.gblBmp.bitmapIsset i = false →
        (m'.coremap i).locked = (m.coremap i).locked)
      (fun _ => True) m := by
  unfold loadPage
  split
  case h_1 => exact ⟨rfl, fun _ _ => rfl⟩
  case h_2 =>
      simp only [↓Prog.wp_bind]
      refine Prog.wp_mono (frameIndex_wp m a _) ?_ (fun _ _ h => h.elim) (fun _ h => h)
      rintro index m' ⟨rfl, entry, hentry, hindex⟩
      have hmarked := hsound.marked hentry (heven entry hentry) hindex
      have hlocked (i : Nat) (hclear : m'.gblBmp.bitmapIsset i = false) :
          (Function.update m'.coremap index { m'.coremap index with locked := true } i).locked =
            (m'.coremap i).locked := by
        have hne : i ≠ index := by
          intro heq
          rw [heq, hmarked] at hclear
          cases hclear
        rw [Function.update_of_ne hne]
      simp only [↓Prog.wp_get, setCoremap, ↓Prog.wp_modify]
      refine Prog.wp_mono (pageRead_wp _ _ _ _ _ _) ?_ ?_ (fun _ _ => trivial)
      · rintro _ _ rfl
        exact ⟨rfl, hlocked⟩
      · rintro _ _ rfl
        exact ⟨rfl, hlocked⟩

/-- A refill locks frames in use only. -/
theorem refill_pins (a : AsId) (va : Nat) (hsound : m.Sound cur)
    (heven : m.EvenEntry a (pageFrame va)) :
    Prog.wp (refill a (pageFrame va))
      (fun _ m' => m'.gblBmp = m.gblBmp ∧ ∀ i, m.gblBmp.bitmapIsset i = false →
        (m'.coremap i).locked = (m.coremap i).locked)
      (fun _ m' => m'.gblBmp = m.gblBmp ∧ ∀ i, m.gblBmp.bitmapIsset i = false →
        (m'.coremap i).locked = (m.coremap i).locked)
      (fun _ => True) m := by
  simp only [refill, ↓Prog.wp_bind, ↓Prog.wp_get]
  refine Prog.wp_mono (loadPage_pins _ a va hsound heven) ?_ (fun _ _ h => h) (fun _ h => h)
  intro _ m₁ hpins
  refine Prog.wp_mono (frameIndex_wp m₁ a _) ?_ (fun _ _ h => h.elim) (fun _ h => h)
  rintro index m' ⟨rfl, -⟩
  refine Prog.wp_mono (tlbInsert_wp m' _ m'.asid) ?_ (fun _ _ h => h.elim) (fun _ h => h)
  rintro _ m₂ ⟨⟨tlb, rfl⟩, -⟩
  exact hpins

/-- A fact about the clear frames and their flags that more marks keep. -/
structure ClearFact (fact : Machine → Prop) : Prop where
  grows : ∀ m m', fact m → Grows m m' → fact m'
  clear : ∀ m m', fact m → m'.gblBmp = m.gblBmp →
    (∀ i, m.gblBmp.bitmapIsset i = false → (m'.coremap i).locked = (m.coremap i).locked) →
    fact m'

theorem ClearFact.sideKeeps {fact : Machine → Prop} (hfact : ClearFact fact)
    (cur : Option AsId) : SideKeeps (fun m => m.Sound cur ∧ fact m) where
  growStack a va m hm := by
    have hgrow : Prog.wp (growStack a va) (fun _ m' => fact m') (fun _ m' => fact m')
        (fun _ => True) m := by
      apply growStack_wp
      intro base
      exact hfact.clear m _ hm.2 rfl (fun _ _ => rfl)
    exact Prog.wp_mono (Prog.wp_and ((sound_sideKeeps cur).growStack a va m hm.1) hgrow)
      (fun _ _ h => h) (fun _ _ h => h) (fun _ h => h.1)
  makeTable a va m hm := by
    refine Prog.wp_mono (Prog.wp_and ((sound_sideKeeps cur).makeTable a va m hm.1)
      (makeTable_grows m a va)) ?_ (fun _ _ h => h.2.elim) (fun _ h => h.1)
    intro _ m' hm'
    exact ⟨hm'.1, hfact.grows m m' hm.2 hm'.2⟩
  refill a va m hm heven := by
    refine Prog.wp_mono (Prog.wp_and ((sound_sideKeeps cur).refill a va m hm.1 heven)
      (refill_pins a va hm.1 heven)) ?_ ?_ (fun _ h => h.1)
    · intro _ m' hm'
      exact ⟨hm'.1, hfact.clear m m' hm.2 hm'.2.1 hm'.2.2⟩
    · intro _ m' hm'
      exact ⟨hm'.1, hfact.clear m m' hm.2 hm'.2.1 hm'.2.2⟩

theorem Unpinned.clear (hunpinned : m.Unpinned) (hbits : m'.gblBmp = m.gblBmp)
    (hlocked : ∀ i, m.gblBmp.bitmapIsset i = false →
      (m'.coremap i).locked = (m.coremap i).locked) : m'.Unpinned := by
  intro i hi hclear
  rw [hbits] at hi hclear
  rw [hlocked i hclear]
  exact hunpinned i hi hclear

theorem OneClear.congr (hone : m.OneClear) (hbits : m'.gblBmp = m.gblBmp) : m'.OneClear := by
  rw [OneClear, hbits]
  exact hone

theorem unpinned_clearFact : ClearFact Unpinned where
  grows _ _ hunpinned hgrows := hunpinned.grows hgrows
  clear _ _ hunpinned hbits hlocked := hunpinned.clear hbits hlocked

theorem pins_clearFact : ClearFact (fun m => m.Unpinned ∨ m.OneClear) where
  grows _ _ hpins hgrows := hpins.imp (fun h => h.grows hgrows) (fun h => h.grows hgrows)
  clear _ _ hpins hbits hlocked :=
    hpins.imp (fun h => h.clear hbits hlocked) (fun h => h.congr hbits)

theorem pins_missKeeps (cur : Option AsId) :
    MissKeeps cur (fun m => m.Sound cur ∧ (m.Unpinned ∨ m.OneClear))
      (fun m => m.Sound cur ∧ m.Unpinned)
      (fun temp index m => (m.Sound cur ∧ m.Ready temp index) ∧ m.Unpinned) where
  side := pins_clearFact.sideKeeps cur
  current _ hm := hm.1.current
  weaken _ hm := ⟨hm.1, Or.inl hm.2⟩
  full _ hm hfull := ⟨hm.1, hfull.unpinned⟩
  getSinglepage m hm := by
    have hpins : Prog.wp getSinglepage
        (fun r m' => if r.1 ≠ 0 then m'.Unpinned else m' = m ∨ m'.Unpinned)
        (fun _ _ => False) (fun _ => True) m := by
      apply getSinglepage_wp trivial
      · intro _
        exact Or.inl rfl
      · intro index hlowest hlt
        have hunpinned := unpinned_took hm.2 hlowest hlt
        split
        · exact hunpinned
        · exact Or.inr hunpinned
    refine Prog.wp_mono (Prog.wp_and ((sound_missKeeps cur).getSinglepage m hm.1) hpins) ?_
      (fun _ _ h => h.1) (fun _ h => h.1)
    intro r m' hr
    split at hr
    case isTrue hfound =>
        rw [if_pos hfound]
        exact hr
    case isFalse hnone =>
        rw [if_neg hnone]
        exact ⟨⟨hr.1.1, Or.inl hr.1.2.unpinned⟩, hr.1.2⟩
  giveFrame a fa temp index m hcur hready := by
    refine Prog.wp_mono (Prog.wp_and
      ((sound_missKeeps cur).giveFrame a fa temp index m hcur hready.1)
      (giveFrame_grows m a fa temp index)) ?_ (fun _ _ h => h.1) (fun _ h => h.1)
    intro _ m' hm'
    exact ⟨hm'.1, hready.2.grows hm'.2⟩
  evicted m slot a hm hfull hvictim :=
    ⟨hm.1.evicted hvictim, Or.inr (hfull.oneClear_evicted slot a)⟩
  lhClear m free hm := ⟨(sound_missKeeps cur).lhClear m free hm.1, hm.2⟩
  copyOut slot pa m hm := ⟨(sound_missKeeps cur).copyOut slot pa m hm.1, hm.2⟩
  tlbDrop va m hm := by
    refine Prog.wp_mono (tlbDrop_returns m va m.asid) ?_ (fun _ _ h => h) (fun _ _ => trivial)
    rintro _ _ ⟨tlb, asid, rfl⟩
    exact ⟨hm.1.withTlb tlb asid, hm.2⟩

/-! The calls. -/

theorem sound_unpinned_touch (cur : Option AsId) (depth : Nat) :
    Touches (fun m => m.Sound cur ∧ m.Unpinned) (kernelTouch depth) :=
  (pins_missKeeps cur).kernelTouch (unpinned_clearFact.sideKeeps cur) (pins_missKeeps cur).weaken
    (fun _ hm => hm) depth

theorem vmFault_unpinned (depth : Nat) (faulttype : FaultType) (hsound : m.Sound cur)
    (hunpinned : m.Unpinned) (hmiss : m.translate address = none) :
    Prog.wp (vmFault depth faulttype address) (fun _ m' => m'.Sound cur ∧ m'.Unpinned)
      (fun _ m' => m'.Sound cur ∧ m'.Unpinned) (fun _ => True) m :=
  (pins_missKeeps cur).vmFault (unpinned_clearFact.sideKeeps cur) (pins_missKeeps cur).weaken
    (fun _ hm => hm) depth faulttype ⟨hsound, hunpinned⟩ hmiss

theorem Unpinned.evicted (hunpinned : m.Unpinned) (slot : Nat) (a : AsId)
    (hlocked : (m.coremap m.findFifo).locked = false) : (m.evicted slot a).Unpinned := by
  intro i hi hclear
  by_cases heq : i = m.findFifo
  · simpa [Machine.evicted, heq] using hlocked
  · have hold : m.gblBmp.bitmapIsset i = false := by
      simpa [Machine.evicted, Bitmap.isset_unmark, heq] using hclear
    have hkept : (m.evicted slot a).coremap i = m.coremap i := Function.update_of_ne heq ..
    rw [hkept]
    exact hunpinned i hi hold

theorem evict_unpinned (hsound : m.Sound cur) (hunpinned : m.Unpinned)
    (hlocked : (m.coremap m.findFifo).locked = false) (depth va : Nat) :
    Prog.wp (evict (kernelTouch depth) va) (fun _ m' => m'.Unpinned) (fun _ _ => False)
      (fun _ => True) m := by
  apply evict_wp va (fun _ _ => trivial)
  · intro _
    exact hunpinned
  · intro slot a hvictim
    have hevicted := And.intro (hsound.evicted hvictim) (hunpinned.evicted slot a hlocked)
    refine Prog.wp_mono ((sound_unpinned_touch cur depth).lhdIo ?_ ?_ hevicted false va) ?_
      (fun _ _ h => h) (fun _ h => h)
    · intro m₁ free hm₁
      exact ⟨(sound_missKeeps cur).lhClear m₁ free hm₁.1, hm₁.2⟩
    · intro pa m₁ hm₁
      exact ⟨(sound_missKeeps cur).copyOut slot pa m₁ hm₁.1, hm₁.2⟩
    · intro _ m₁ hm₁
      refine Prog.wp_mono (tlbDrop_returns m₁ _ m₁.asid) ?_ (fun _ _ h => h)
        (fun _ _ => trivial)
      rintro _ _ ⟨tlb, asid, rfl⟩
      exact hm₁.2

theorem grows_swappedIn (m : Machine) (slot index : Nat) (a : AsId) :
    Grows m (m.swappedIn slot index a) := by
  refine ⟨rfl, ?_, locked_update rfl⟩
  intro i hset
  simp only [swappedIn, Bitmap.isset_mark, hset, Bool.true_or]

theorem swapIn_unpinned (hsound : m.Sound cur) (hunpinned : m.Unpinned)
    (haddr : ∀ index, m.gblBmp.Lowest index →
      (m.coremap index).addr = (m.swapHolder slot).addr) (depth va : Nat) :
    Prog.wp (swapIn (kernelTouch depth) va slot) (fun _ m' => m'.Unpinned) (fun _ _ => False)
      (fun _ => True) m := by
  apply swapIn_wp va slot (fun _ _ => trivial) hunpinned
  intro index a hlowest hlt hholder _
  have hread := And.intro (hsound.swappedIn hlowest hlt hholder (haddr index hlowest))
    (hunpinned.grows (grows_swappedIn m slot index a))
  refine Prog.wp_mono ((sound_unpinned_touch cur depth).lhdIo ?_ ?_ hread true va)
    (fun _ _ h => h.2) (fun _ _ h => h) (fun _ h => h)
  · intro m₁ free hm₁
    exact ⟨(sound_missKeeps cur).lhClear m₁ free hm₁.1, hm₁.2⟩
  · intro pa m₁ hm₁
    exact ⟨hm₁.1.sameFrames ⟨rfl, rfl, rfl, fun _ _ => rfl, fun _ => rfl, fun _ => rfl,
      fun _ => rfl⟩ rfl rfl, hm₁.2⟩

theorem locked_removed (m : Machine) (index i : Nat) :
    ((m.removed index).coremap i).locked = (m.coremap i).locked := by
  refine locked_update ?_ i
  rfl

theorem Unpinned.removed (hunpinned : m.Unpinned) (hlocked : (m.coremap index).locked = false) :
    (m.removed index).Unpinned := by
  intro i hi hclear
  have hbits : (m.removed index).gblBmp.nbits = m.gblBmp.nbits := by
    unfold Machine.removed
    dsimp only
    split
    · rfl
    · rfl
  rw [hbits] at hi
  rw [locked_removed]
  rw [isset_removed, Bool.and_eq_false_iff, decide_eq_false_iff_not, not_not] at hclear
  cases hclear with
  | inl hold => exact hunpinned i hi hold
  | inr heq =>
      rw [heq]
      exact hlocked

theorem freeKpages_unpinned (hunpinned : m.Unpinned)
    (hfound : (m.coremap (m.findVa addr (m.maxPageNum - 3) 3)).va = addr →
      (m.coremap (m.findVa addr (m.maxPageNum - 3) 3)).locked = false) :
    Prog.wp (freeKpages addr) (fun _ m' => m'.Unpinned) (fun _ _ => False) (fun _ => True) m := by
  apply freeKpages_wp addr hunpinned
  rintro i rfl _ hva
  exact hunpinned.removed (hfound hva)

/-- What `as_destroy` frees while it runs it could have freed at the start: no
flag changes, and the entries it empties record no address. -/
theorem asDestroy_unpinned {a : AsId} {pages : AsPages} (hunpinned : m.Unpinned)
    (hgiven : ∀ i, m.Names a i ∨ pages.Has (m.coremap i).va → (m.coremap i).locked = false)
    (rest : Addrspace) :
    Prog.wp (asDestroy a pages rest) (fun _ m' => m'.Unpinned) (fun _ _ => False)
      (fun _ => True) m := by
  have hkeeps := @asDestroy_keeps m (fun _ _ => False) a pages rest
    (fun m' => m'.Unpinned ∧ (∀ i, (m'.coremap i).locked = (m.coremap i).locked) ∧
      ∀ i, (m'.coremap i).va = 0 ∨ (m'.coremap i).va = (m.coremap i).va)
  have hremoved (m' : Machine) (index : Nat)
      (hva : ∀ i, (m'.coremap i).va = 0 ∨ (m'.coremap i).va = (m.coremap i).va) (i : Nat) :
      ((m'.removed index).coremap i).va = 0 ∨
        ((m'.removed index).coremap i).va = (m.coremap i).va := by
    by_cases heq : i = index
    · simp [Machine.removed, heq]
    · simpa [Machine.removed, heq] using hva i
  refine Prog.wp_mono (hkeeps ?_ ?_ ?_ ?_ ⟨hunpinned, fun _ => rfl, fun _ => Or.inr rfl⟩)
    (fun _ _ h => h.1) (fun _ _ h => h) (fun _ h => h)
  · rintro m' i ⟨hunpinned', hlocked, hva⟩ hname
    refine ⟨hunpinned'.removed ?_, ?_, hremoved m' i hva⟩
    · rw [hlocked]
      exact hgiven i (Or.inl hname)
    · intro j
      rw [locked_removed, hlocked]
  · rintro m' i ⟨hunpinned', hlocked, hva⟩ _ hpage
    refine ⟨hunpinned'.removed ?_, ?_, hremoved m' i hva⟩
    · rw [hlocked]
      apply hgiven i
      cases hva i with
      | inl hzero => exact absurd hzero hpage.1
      | inr hsame =>
          rw [hsame] at hpage
          exact Or.inr hpage
    · intro j
      rw [locked_removed, hlocked]
  · intro m' tlb asid hm'
    exact hm'
  · intro m' hm'
    exact hm'

theorem UnlockingStep.unpinned (hstep : UnlockingStep m m') (hunpinned : m.Unpinned) :
    m'.Unpinned := by
  obtain ⟨event, hstep, hunlocks⟩ := hstep
  cases hstep with
  | vmFault hmiss hdone =>
      exact ((vmFault_unpinned _ _ hunlocks hunpinned hmiss).post_of_ok hdone).2
  | vmFaultError hmiss hdone =>
      exact ((vmFault_unpinned _ _ hunlocks hunpinned hmiss).fails_of_error hdone).2
  | evict hdone =>
      exact (evict_unpinned hunlocks.1 hunpinned hunlocks.2 _ _).post_of_ok hdone
  | swapIn hdone =>
      exact (swapIn_unpinned hunlocks.1 hunpinned hunlocks.2 _ _).post_of_ok hdone
  | allocKpages hdone =>
      exact hunpinned.grows ((allocKpages_grows m _ _).post_of_ok hdone)
  | freeKpages hdone => exact (freeKpages_unpinned hunpinned hunlocks).post_of_ok hdone
  | asDestroy hdone => exact (asDestroy_unpinned hunpinned hunlocks _).post_of_ok hdone
  | elsewhere hbits hcoremap =>
      apply hunpinned.clear hbits
      intro i _
      rw [hcoremap]

end OS161.VM.Machine
