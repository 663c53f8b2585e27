import Mathlib.Data.Finset.Card
import Mathlib.Data.Finset.Range
import OS161.VM.Ownership
import OS161.VM.Pager

namespace OS161.VM.Machine

open OS161.Data
open OS161.Kern
open OS161.Lib

/-! The frames behind the coremap: where they lie and how many are free. -/

/-- The coremap that `coremap_init` lays out over `frames` frames from `start`
on, of which the first three are never handed out. -/
structure Framed (start frames : Nat) (m : Machine) : Prop where
  memStart : m.memStart = start
  maxPageNum : m.maxPageNum = frames
  bits : m.gblBmp.nbits = frames
  reserved : ∀ i < 3, m.gblBmp.bitmapIsset i = true
  pa : ∀ i, 3 ≤ i → i < frames → (m.coremap i).pa = start + i * PAGE_SIZE

/-- A frame that was taken and not given to a page yet. -/
structure Taken (start frames : Nat) (temp index : Nat) (m : Machine) : Prop where
  ge : 3 ≤ index
  lt : index < frames
  temp : temp = start + index * PAGE_SIZE
  marked : m.gblBmp.bitmapIsset index = true

variable {m m' : Machine} {start frames temp index : Nat}

/-- Nothing that `Framed` speaks of got lost. -/
structure Reframed (m m' : Machine) : Prop where
  memStart : m'.memStart = m.memStart
  maxPageNum : m'.maxPageNum = m.maxPageNum
  bits : m'.gblBmp.nbits = m.gblBmp.nbits
  marked : ∀ i < 3, m.gblBmp.bitmapIsset i = true → m'.gblBmp.bitmapIsset i = true
  pa : ∀ i, (m'.coremap i).pa = (m.coremap i).pa

theorem Framed.reframed (hframed : m.Framed start frames) (h : Reframed m m') :
    m'.Framed start frames where
  memStart := h.memStart.trans hframed.memStart
  maxPageNum := h.maxPageNum.trans hframed.maxPageNum
  bits := h.bits.trans hframed.bits
  reserved i hi := h.marked i hi (hframed.reserved i hi)
  pa i hlow hi := (h.pa i).trans (hframed.pa i hlow hi)

/-- The address of one coremap entry stays when the others are left alone. -/
theorem pa_update {coremap : Nat → PageTableEntry} {e : PageTableEntry}
    (hpa : e.pa = (coremap index).pa) (i : Nat) :
    (Function.update coremap index e i).pa = (coremap i).pa := by
  by_cases heq : i = index
  · rw [heq, Function.update_self, hpa]
  · rw [Function.update_of_ne heq]

theorem Framed.lowest_ge (hframed : m.Framed start frames)
    (hlowest : m.gblBmp.Lowest index) : 3 ≤ index := by
  by_contra hlt
  have hset := hframed.reserved index (by omega)
  rw [hlowest.clear] at hset
  cases hset

theorem reframed_took (m : Machine) (index : Nat) : Reframed m (m.took index) where
  memStart := rfl
  maxPageNum := rfl
  bits := rfl
  marked i _ hset := by
    simp only [took, Bitmap.isset_mark, hset, Bool.true_or]
  pa i := by
    refine pa_update ?_ i
    rfl

theorem Framed.taken_took (hframed : m.Framed start frames)
    (hlowest : m.gblBmp.Lowest index) (hlt : index < m.gblBmp.nbits) :
    Taken start frames (m.coremap index).pa index (m.took index) := by
  have hge := hframed.lowest_ge hlowest
  rw [hframed.bits] at hlt
  refine ⟨hge, hlt, hframed.pa index hge hlt, ?_⟩
  simp [took, Bitmap.isset_mark]

theorem getSinglepage_framed (hframed : m.Framed start frames) :
    Prog.wp getSinglepage
      (fun r m' => m'.Framed start frames ∧ (r.1 ≠ 0 → Taken start frames r.1 r.2 m'))
      (fun _ _ => False) (fun _ => True) m := by
  apply getSinglepage_wp trivial
  · intro _
    exact ⟨hframed, fun hne => absurd rfl hne⟩
  · intro index hlowest hlt
    exact ⟨hframed.reframed (reframed_took m index), fun _ => hframed.taken_took hlowest hlt⟩

section Room

variable (hroom : start + frames * PAGE_SIZE ≤ 2 ^ 32)

include hroom

theorem Taken.ptIndex (htaken : Taken start frames temp index m') (hstart : m.memStart = start) :
    (temp + 2 ^ 32 - m.memStart) % 2 ^ 32 / PAGE_SIZE = index := by
  have hlt := htaken.lt
  rw [htaken.temp, hstart]
  simp only [PAGE_SIZE] at hroom ⊢
  omega

/-- `pt_insert` on a frame that was taken writes its coremap entry. -/
theorem Taken.ptInsert (htaken : Taken start frames temp index m)
    (hframed : m.Framed start frames) (vaddr : Nat) {post : Unit → Machine → Prop}
    {fails : Errno → Machine → Prop} {bad : Fault → Prop} :
    Prog.wp (ptInsert vaddr temp) post fails bad m ↔ post () (m.inserted index vaddr temp) :=
  wp_ptInsert (htaken.ptIndex hroom hframed.memStart) htaken.marked vaddr

omit hroom in
theorem Taken.inserted (htaken : Taken start frames temp index m)
    (hframed : m.Framed start frames) (vaddr : Nat) :
    (m.inserted index vaddr temp).Framed start frames := by
  apply hframed.reframed
  refine ⟨rfl, rfl, rfl, fun _ _ h => h, pa_update ?_⟩
  rw [hframed.pa index htaken.ge htaken.lt]
  exact htaken.temp

theorem kmallocTable_framed :
    Keeps (Framed start frames) (fun _ => True) kmallocTable := by
  intro m hframed
  simp only [kmallocTable, ↓Prog.wp_bind]
  refine Prog.wp_mono (getSinglepage_framed hframed) ?_ (fun _ _ h => h.elim) (fun _ h => h)
  rintro ⟨temp, index⟩ m₁ ⟨hframed₁, htaken⟩
  simp only [↓Prog.wp_assert]
  split
  case isFalse => trivial
  case isTrue hne =>
      obtain htaken := htaken hne
      have hframed₂ : (m₁.withNpages index).Framed start frames :=
        hframed₁.reframed ⟨rfl, rfl, rfl, fun _ _ h => h, pa_update rfl⟩
      have htaken₂ : Taken start frames temp index (m₁.withNpages index) :=
        ⟨htaken.ge, htaken.lt, htaken.temp, htaken.marked⟩
      show Prog.wp (ptInsert _ _) _ _ _ (m₁.withNpages index)
      rw [htaken₂.ptInsert hroom hframed₂]
      exact (htaken₂.inserted hframed₂ _).reframed
        ⟨rfl, rfl, rfl, fun _ _ h => h, fun _ => rfl⟩

theorem makeTable_framed (a : AsId) (va : Nat) :
    Keeps (Framed start frames) (fun _ => True) (makeTable a va) := by
  intro m hframed
  simp only [makeTable, setAddrspace, ↓Prog.wp_bind, ↓Prog.wp_get, ↓Prog.wp_when,
    ↓Prog.wp_modify]
  split
  case isFalse => exact hframed
  case isTrue =>
      refine Prog.wp_mono (kmallocTable_framed hroom m hframed) ?_ (fun _ _ h => h)
        (fun _ h => h)
      intro table m' hframed'
      exact hframed'.reframed ⟨rfl, rfl, rfl, fun _ _ h => h, fun _ => rfl⟩

theorem giveFrame_framed (a : AsId) (fa : Nat) (hframed : m.Framed start frames)
    (htaken : Taken start frames temp index m) :
    Prog.wp (giveFrame a fa temp index) (fun _ m' => m'.Framed start frames)
      (fun _ m' => m'.Framed start frames) (fun _ => True) m := by
  simp only [giveFrame, setCoremap, ↓Prog.wp_bind, ↓Prog.wp_modify, wp_writePte]
  split
  case isFalse => trivial
  case isTrue =>
      have hframed₁ : ((m.withNpages index).setPte a fa (index * 2)).Framed start frames :=
        hframed.reframed ⟨rfl, rfl, rfl, fun _ _ h => h, pa_update rfl⟩
      have htaken₁ : Taken start frames temp index
          ((m.withNpages index).setPte a fa (index * 2)) :=
        ⟨htaken.ge, htaken.lt, htaken.temp, htaken.marked⟩
      show Prog.wp (ptInsert _ _) _ _ _ ((m.withNpages index).setPte a fa (index * 2))
      rw [htaken₁.ptInsert hroom hframed₁]
      exact htaken₁.inserted hframed₁ fa

end Room

theorem reframed_withTlb (m : Machine) (tlb : Nat → TlbEntry) (asid : Nat) :
    Reframed m (m.withTlb tlb asid) :=
  ⟨rfl, rfl, rfl, fun _ _ h => h, fun _ => rfl⟩

theorem reframed_evicted (m : Machine) (slot : Nat) (a : AsId) :
    Reframed m (m.evicted slot a) where
  memStart := rfl
  maxPageNum := rfl
  bits := rfl
  marked i hi hset := by
    have hge := findFifo_ge m
    simp only [evicted, Bitmap.isset_unmark, hset, Bool.true_and, decide_eq_true_eq]
    omega
  pa i := by
    refine pa_update ?_ i
    rfl

theorem reframed_swappedIn (m : Machine) (slot index : Nat) (a : AsId) :
    Reframed m (m.swappedIn slot index a) where
  memStart := rfl
  maxPageNum := rfl
  bits := rfl
  marked i _ hset := by
    simp only [swappedIn, Bitmap.isset_mark, hset, Bool.true_or]
  pa i := by
    refine pa_update ?_ i
    rfl

theorem loadPage_framed (as : Addrspace) (a : AsId) (va : Nat) :
    Keeps (Framed start frames) (fun _ => True) (loadPage as a va) := by
  intro m hframed
  unfold loadPage
  split
  case h_1 => exact hframed
  case h_2 =>
      simp only [↓Prog.wp_bind]
      refine Prog.wp_mono (frameIndex_wp m a va) ?_ (fun _ _ h => h.elim) (fun _ h => h)
      rintro index m' ⟨rfl, -⟩
      simp only [↓Prog.wp_get, setCoremap, ↓Prog.wp_modify]
      refine Prog.wp_mono (pageRead_wp _ _ _ _ _ _) ?_ ?_ (fun _ _ => trivial)
      · rintro _ _ rfl
        exact hframed.reframed ⟨rfl, rfl, rfl, fun _ _ h => h, pa_update rfl⟩
      · rintro _ _ rfl
        exact hframed.reframed ⟨rfl, rfl, rfl, fun _ _ h => h, pa_update rfl⟩

theorem refill_framed (a : AsId) (va : Nat) :
    Keeps (Framed start frames) (fun _ => True) (refill a va) := by
  intro m hframed
  simp only [refill, ↓Prog.wp_bind, ↓Prog.wp_get]
  refine Prog.wp_mono (loadPage_framed _ a va m hframed) ?_ (fun _ _ h => h) (fun _ h => h)
  intro _ m₁ hframed₁
  refine Prog.wp_mono (frameIndex_wp m₁ a va) ?_ (fun _ _ h => h.elim) (fun _ h => h)
  rintro index m' ⟨rfl, -⟩
  refine Prog.wp_mono (tlbInsert_wp m' _ m'.asid) ?_ (fun _ _ h => h.elim) (fun _ h => h)
  rintro _ m₂ ⟨⟨tlb, rfl⟩, -⟩
  exact hframed₁.reframed (reframed_withTlb m' tlb _)

theorem framed_pagerKeeps (hroom : start + frames * PAGE_SIZE ≤ 2 ^ 32) :
    PagerKeeps (Framed start frames) (fun _ => True)
      (fun temp index m => m.Framed start frames ∧ Taken start frames temp index m)
      (fun _ => True) where
  miss _ _ _ _ := trivial
  panics _ _ := trivial
  growStack a va m hframed := by
    apply growStack_wp
    intro base
    exact hframed.reframed ⟨rfl, rfl, rfl, fun _ _ h => h, fun _ => rfl⟩
  makeTable a va _ := makeTable_framed hroom a va
  getSinglepage m hframed := by
    refine Prog.wp_mono (getSinglepage_framed hframed) ?_ (fun _ _ h => h.elim) (fun _ h => h)
    intro r m' hr
    split
    case isTrue hfound => exact ⟨hr.1, hr.2 hfound⟩
    case isFalse => exact hr.1
  giveFrame a fa temp index m _ hready := giveFrame_framed hroom a fa hready.1 hready.2
  evicted m slot a hframed _ := hframed.reframed (reframed_evicted m slot a)
  swappedIn m slot index a hframed _ _ _ _ := hframed.reframed (reframed_swappedIn m slot index a)
  lhClear m free hframed := hframed.reframed ⟨rfl, rfl, rfl, fun _ _ h => h, fun _ => rfl⟩
  copyOut slot pa m hframed := hframed.reframed ⟨rfl, rfl, rfl, fun _ _ h => h, fun _ => rfl⟩
  copyIn slot pa m hframed := hframed.reframed ⟨rfl, rfl, rfl, fun _ _ h => h, fun _ => rfl⟩
  tlbDrop va m hframed := by
    refine Prog.wp_mono (tlbDrop_returns m va m.asid) ?_ (fun _ _ h => h.elim)
      (fun _ _ => trivial)
    rintro _ _ ⟨tlb, asid, rfl⟩
    exact hframed.reframed (reframed_withTlb m tlb asid)
  refill a va := refill_framed a _

/-! Free frames. -/

def freeSet (m : Machine) : Finset Nat :=
  (Finset.range m.gblBmp.nbits).filter fun i => m.gblBmp.bitmapIsset i = false

def freeFrames (m : Machine) : Nat := m.freeSet.card

theorem mem_freeSet :
    index ∈ m.freeSet ↔ index < m.gblBmp.nbits ∧ m.gblBmp.bitmapIsset index = false := by
  simp [freeSet]

theorem freeFrames_congr (hbits : m'.gblBmp = m.gblBmp) : m'.freeFrames = m.freeFrames := by
  rw [freeFrames, freeSet, hbits]
  rfl

theorem freeFrames_took (hlowest : m.gblBmp.Lowest index) (hlt : index < m.gblBmp.nbits) :
    (m.took index).freeFrames = m.freeFrames - 1 := by
  have hmem : index ∈ m.freeSet := mem_freeSet.mpr ⟨hlt, hlowest.clear⟩
  have herase : (m.took index).freeSet = m.freeSet.erase index := by
    ext j
    rw [Finset.mem_erase, mem_freeSet, mem_freeSet]
    simp only [took, Bitmap.nbits_mark, Bitmap.isset_mark, Bool.or_eq_false_iff,
      decide_eq_false_iff_not]
    tauto
  rw [freeFrames, herase, Finset.card_erase_of_mem hmem, freeFrames]

/-- Where a frame is free `get_singlepage` takes one. -/
theorem getSinglepage_free (hframed : m.Framed start frames) (hstart : 0 < start)
    (hfree : 0 < m.freeFrames) {post : Nat × Nat → Machine → Prop}
    {fails : Errno → Machine → Prop} {bad : Fault → Prop}
    (htook : ∀ temp index, temp ≠ 0 → m.gblBmp.Lowest index → index < m.gblBmp.nbits →
      Taken start frames temp index (m.took index) → post (temp, index) (m.took index)) :
    Prog.wp getSinglepage post fails bad m := by
  obtain ⟨i, hi⟩ := Finset.card_pos.mp hfree
  obtain ⟨hlt, hclear⟩ := mem_freeSet.mp hi
  have hunset : m.gblBmp.bitmapIsset i ≠ true := Bool.eq_false_iff.mp hclear
  simp only [getSinglepage, onGblBmp, ↓Prog.wp_bind, ↓Prog.wp_attempt, ↓Prog.wp_zoom]
  refine Prog.wp_mono (Bitmap.bitmapAlloc_wp m.gblBmp) ?_ ?_ ?_
  · rintro index gblBmp ⟨hlowest, hindex, rfl⟩
    have htaken := hframed.taken_took hlowest hindex
    have hpa : ((m.took index).coremap index).pa = (m.coremap index).pa := by
      simp [took]
    have hpost := htook _ _ (by rw [htaken.temp]; omega) hlowest hindex htaken
    rw [← hpa] at hpost
    exact hpost
  · rintro code gblBmp ⟨-, -, hall⟩
    exact absurd (hall i (by simp only [Bitmap.words]; omega)) hunset
  · rintro reason ⟨-, index, hlowest, hge, -⟩
    exact absurd (hlowest.below i (by omega)) hunset

/-- The frames that a run starts from. -/
theorem coremapInit_framed (hroom : firstaddr + 3 * PAGE_SIZE ≤ lastaddr)
    (hlast : lastaddr < 2 ^ 32) :
    Prog.wp (coremapInit firstaddr lastaddr)
      (fun _ m' => m'.Framed (firstaddr + 3 * PAGE_SIZE)
        ((lastaddr - (firstaddr + 3 * PAGE_SIZE)) / PAGE_SIZE))
      (fun _ _ => False) (fun _ => True) m := by
  have hpages : (lastaddr + 2 ^ 32 - (firstaddr + 3 * PAGE_SIZE)) % 2 ^ 32 =
      lastaddr - (firstaddr + 3 * PAGE_SIZE) := by
    omega
  simp only [coremapInit, onGblBmp, ↓Prog.wp_bind, ↓Prog.wp_modify, ↓Prog.wp_zoom,
    Bitmap.wp_bitmapMark, hpages]
  repeat'
    split
    case isFalse => trivial
  refine ⟨rfl, rfl, rfl, ?_, ?_⟩
  · intro i hi
    simp only [Bitmap.isset_mark, Bool.or_eq_true, decide_eq_true_eq]
    omega
  · intro i hlow hi
    simp [hlow, hi]

end OS161.VM.Machine
