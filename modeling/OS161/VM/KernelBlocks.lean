import OS161.VM.Kpages

namespace OS161.VM.Machine

open OS161.Data
open OS161.Kern
open OS161.Lib

/-! The blocks of frames that the kernel holds, by the addresses the coremap
records. -/

/-- The kernel's address of a frame. -/
def kva (start i : Nat) : Nat := start + i * PAGE_SIZE + KSEG0

/-- An address that the MMU does not map through the TLB. -/
def Unmapped (va : Nat) : Prop := KSEG0 ≤ va ∧ va < 0xc0000000

/-- The address is the kernel's address of this frame or of none. -/
def OwnVa (start frames i va : Nat) : Prop := ∀ j < frames, va = kva start j → j = i

/-- The frames from `top` on were never handed out, so that their coremap entries
hold what `kmalloc` left there. -/
structure Laid (start frames top : Nat) (m : Machine) : Prop extends Framed start frames m where
  three : 3 ≤ frames
  tables : ∀ a t, 512 ≤ t → t < 768 → (m.addrspace a).firstpt t = none
  unused : ∀ i, top ≤ i → i < frames → m.gblBmp.bitmapIsset i = false
  own : ∀ i, 3 ≤ i → i < top → i < frames → OwnVa start frames i (m.coremap i).va

/-- The frames `head`, …, `head + n - 1` are one block of the kernel. -/
structure Block (start head n : Nat) (m : Machine) : Prop where
  marked : ∀ i, head ≤ i → i < head + n → m.gblBmp.bitmapIsset i = true
  va : ∀ i, head ≤ i → i < head + n → (m.coremap i).va = kva start i
  npages : 0 < n → (m.coremap head).npages ≠ 0

/-- A layout in which the block is in place. -/
def Holds (start frames head n : Nat) (m : Machine) : Prop :=
  (∃ top, Laid start frames top m) ∧ m.Block start head n

variable {m m' : Machine} {start frames top head n index va : Nat}

theorem block_zero (start head : Nat) (m : Machine) : m.Block start head 0 :=
  ⟨fun _ _ _ => by omega, fun _ _ _ => by omega, fun h => absurd h (Nat.lt_irrefl 0)⟩

section Room

variable (hroom : start + frames * PAGE_SIZE ≤ 0x20000000)

include hroom

theorem unmapped_kva (hi : i < frames) : Unmapped (kva start i) := by
  simp only [Unmapped, kva, KSEG0, PAGE_SIZE] at hroom ⊢
  omega

omit hroom in
theorem kva_inj (heq : kva start i = kva start j) : i = j := by
  simp only [kva, PAGE_SIZE] at heq
  omega

omit hroom in
theorem ownVa_kva (start frames i : Nat) : OwnVa start frames i (kva start i) := by
  intro j _ heq
  exact (kva_inj heq).symm

theorem ownVa_of_mapped (hva : ¬ Unmapped va) : OwnVa start frames i va := by
  intro j hj heq
  rw [heq] at hva
  exact absurd (unmapped_kva hroom hj) hva

theorem paddrToKvaddr_frame (hi : i < frames) :
    paddrToKvaddr (start + i * PAGE_SIZE) = kva start i := by
  simp only [paddrToKvaddr, kva, KSEG0, PAGE_SIZE] at hroom ⊢
  omega

omit hroom in
theorem mapped_of_table (hlaid : m.Laid start frames top) (htable : (m.pte a va).isSome) :
    ¬ Unmapped va := by
  intro hkernel
  have hnone := hlaid.tables a (topten va)
    (by simp only [topten, Unmapped, KSEG0] at hkernel ⊢; omega)
    (by simp only [topten, Unmapped] at hkernel ⊢; omega)
  simp [pte, hnone] at htable

/-! One frame is taken, or given back. -/

/-- A clear frame is marked and its coremap entry written. -/
structure Fill (m : Machine) (index va : Nat) (m' : Machine) : Prop where
  memStart : m'.memStart = m.memStart
  maxPageNum : m'.maxPageNum = m.maxPageNum
  bits : m'.gblBmp = m.gblBmp.mark index
  pa : ∀ i, (m'.coremap i).pa = (m.coremap i).pa
  va : ∀ i, (m'.coremap i).va = if i = index then va else (m.coremap i).va
  npages : ∀ i, i ≠ index → (m'.coremap i).npages = (m.coremap i).npages
  tables : ∀ a t, 512 ≤ t → t < 768 → (m.addrspace a).firstpt t = none →
    (m'.addrspace a).firstpt t = none

omit hroom in
theorem Fill.laid (hfill : m.Fill index va m') (hlaid : m.Laid start frames top)
    (hva : OwnVa start frames index va) (hle : index ≤ top) :
    m'.Laid start frames (max top (index + 1)) where
  memStart := hfill.memStart.trans hlaid.memStart
  maxPageNum := hfill.maxPageNum.trans hlaid.maxPageNum
  bits := by
    rw [hfill.bits, Bitmap.nbits_mark]
    exact hlaid.bits
  reserved i hi := by
    rw [hfill.bits, Bitmap.isset_mark, hlaid.reserved i hi, Bool.true_or]
  pa i hlow hi := (hfill.pa i).trans (hlaid.pa i hlow hi)
  three := hlaid.three
  tables a t hlow hhigh := hfill.tables a t hlow hhigh (hlaid.tables a t hlow hhigh)
  unused i htop hi := by
    rw [hfill.bits, Bitmap.isset_mark, hlaid.unused i (by omega) hi, Bool.false_or,
      decide_eq_false_iff_not]
    omega
  own i hlow htop hi := by
    rw [hfill.va]
    split
    case isTrue heq =>
        rw [heq]
        exact hva
    case isFalse hne => exact hlaid.own i hlow (by omega) hi

omit hroom in
theorem Fill.block (hfill : m.Fill index va m') (hblock : m.Block start head n)
    (hclear : m.gblBmp.bitmapIsset index = false) : m'.Block start head n := by
  have hother (i : Nat) (hlow : head ≤ i) (hhigh : i < head + n) : i ≠ index := by
    intro heq
    have hset := hblock.marked i hlow hhigh
    rw [heq, hclear] at hset
    cases hset
  refine ⟨?_, ?_, ?_⟩
  · intro i hlow hhigh
    rw [hfill.bits, Bitmap.isset_mark, hblock.marked i hlow hhigh, Bool.true_or]
  · intro i hlow hhigh
    rw [hfill.va, if_neg (hother i hlow hhigh)]
    exact hblock.va i hlow hhigh
  · intro hn
    rw [hfill.npages head (hother head (by omega) (by omega))]
    exact hblock.npages hn

omit hroom in
theorem Laid.lowest_le (hlaid : m.Laid start frames top) (hlowest : m.gblBmp.Lowest index)
    (hlt : index < frames) : index ≤ top := by
  by_contra hgt
  have hset := hlowest.below top (by omega)
  rw [hlaid.unused top (by omega) (by omega)] at hset
  cases hset

omit hroom in
theorem Fill.holds (hfill : m.Fill index va m') (hholds : m.Holds start frames head n)
    (hva : OwnVa start frames index va) (hlowest : m.gblBmp.Lowest index)
    (hlt : index < m.gblBmp.nbits) : m'.Holds start frames head n := by
  obtain ⟨⟨top, hlaid⟩, hblock⟩ := hholds
  rw [hlaid.bits] at hlt
  exact ⟨⟨_, hfill.laid hlaid hva (hlaid.lowest_le hlowest hlt)⟩,
    hfill.block hblock hlowest.clear⟩

/-- Nothing that the layout and the block speak of changes. -/
structure SameMap (m m' : Machine) : Prop where
  memStart : m'.memStart = m.memStart
  maxPageNum : m'.maxPageNum = m.maxPageNum
  bits : m'.gblBmp = m.gblBmp
  pa : ∀ i, (m'.coremap i).pa = (m.coremap i).pa
  va : ∀ i, (m'.coremap i).va = (m.coremap i).va
  npages : ∀ i, (m.coremap i).npages ≠ 0 → (m'.coremap i).npages ≠ 0
  tables : ∀ a t, 512 ≤ t → t < 768 → (m.addrspace a).firstpt t = none →
    (m'.addrspace a).firstpt t = none

omit hroom in
theorem Holds.sameMap (hholds : m.Holds start frames head n) (hsame : SameMap m m') :
    m'.Holds start frames head n := by
  obtain ⟨⟨top, hlaid⟩, hblock⟩ := hholds
  refine ⟨⟨top, ⟨⟨hsame.memStart.trans hlaid.memStart,
    hsame.maxPageNum.trans hlaid.maxPageNum, ?_, ?_, ?_⟩, hlaid.three, ?_, ?_, ?_⟩⟩,
    ?_, ?_, ?_⟩
  · rw [hsame.bits]
    exact hlaid.bits
  · rw [hsame.bits]
    exact hlaid.reserved
  · intro i hlow hi
    exact (hsame.pa i).trans (hlaid.pa i hlow hi)
  · intro a t hlow hhigh
    exact hsame.tables a t hlow hhigh (hlaid.tables a t hlow hhigh)
  · rw [hsame.bits]
    exact hlaid.unused
  · intro i hlow htop hi
    rw [hsame.va]
    exact hlaid.own i hlow htop hi
  · rw [hsame.bits]
    exact hblock.marked
  · intro i hlow hhigh
    exact (hsame.va i).trans (hblock.va i hlow hhigh)
  · intro hn
    exact hsame.npages head (hblock.npages hn)

/-- A frame's coremap entry is emptied, and its mark goes if it had one. -/
structure Release (m : Machine) (index : Nat) (m' : Machine) : Prop where
  memStart : m'.memStart = m.memStart
  maxPageNum : m'.maxPageNum = m.maxPageNum
  nbits : m'.gblBmp.nbits = m.gblBmp.nbits
  bits : ∀ i, m'.gblBmp.bitmapIsset i = (m.gblBmp.bitmapIsset i && decide (i ≠ index))
  pa : ∀ i, 3 ≤ i → i < m.maxPageNum → (m'.coremap i).pa = (m.coremap i).pa
  va : ∀ i, (m'.coremap i).va = if i = index then 0 else (m.coremap i).va
  npages : ∀ i, i ≠ index → (m'.coremap i).npages = (m.coremap i).npages
  tables : ∀ a t, 512 ≤ t → t < 768 → (m.addrspace a).firstpt t = none →
    (m'.addrspace a).firstpt t = none

omit hroom in
theorem Release.holds (hrelease : m.Release index m') (hholds : m.Holds start frames head n)
    (hge : 3 ≤ index) (hother : ¬ (head ≤ index ∧ index < head + n)) :
    m'.Holds start frames head n := by
  obtain ⟨⟨top, hlaid⟩, hblock⟩ := hholds
  refine ⟨⟨top, ⟨⟨hrelease.memStart.trans hlaid.memStart,
    hrelease.maxPageNum.trans hlaid.maxPageNum, hrelease.nbits.trans hlaid.bits, ?_, ?_⟩,
    hlaid.three, ?_, ?_, ?_⟩⟩, ?_, ?_, ?_⟩
  · intro i hi
    rw [hrelease.bits, hlaid.reserved i hi, Bool.true_and, decide_eq_true_eq]
    omega
  · intro i hlow hi
    exact (hrelease.pa i hlow (hlaid.maxPageNum ▸ hi)).trans (hlaid.pa i hlow hi)
  · intro a t hlow hhigh
    exact hrelease.tables a t hlow hhigh (hlaid.tables a t hlow hhigh)
  · intro i htop hi
    rw [hrelease.bits, hlaid.unused i htop hi, Bool.false_and]
  · intro i hlow htop hi
    rw [hrelease.va]
    split
    case isTrue =>
        intro j _ heq
        simp only [kva, KSEG0] at heq
        omega
    case isFalse => exact hlaid.own i hlow htop hi
  · intro i hlow hhigh
    rw [hrelease.bits, hblock.marked i hlow hhigh, Bool.true_and, decide_eq_true_eq]
    intro heq
    rw [heq] at hlow hhigh
    exact hother ⟨hlow, hhigh⟩
  · intro i hlow hhigh
    have hne : i ≠ index := by
      intro heq
      rw [heq] at hlow hhigh
      exact hother ⟨hlow, hhigh⟩
    rw [hrelease.va, if_neg hne]
    exact hblock.va i hlow hhigh
  · intro hn
    have hne : head ≠ index := by
      intro heq
      exact hother ⟨by omega, by omega⟩
    rw [hrelease.npages head hne]
    exact hblock.npages hn

end Room

/-! The pager. -/

theorem va_update {coremap : Nat → PageTableEntry} {e : PageTableEntry} (i : Nat) :
    (Function.update coremap index e i).va = if i = index then e.va else (coremap i).va := by
  by_cases heq : i = index
  · rw [heq, Function.update_self, if_pos rfl]
  · rw [Function.update_of_ne heq, if_neg heq]

/-- What `get_singlepage` does where it finds a frame. -/
structure Took (m : Machine) (temp index : Nat) (m' : Machine) : Prop where
  lowest : m.gblBmp.Lowest index
  lt : index < m.gblBmp.nbits
  temp : temp = (m.coremap index).pa
  eq : m' = m.took index

/-- A machine like that took the frame. -/
def TookFrom (inv : Machine → Prop) (temp index : Nat) (m : Machine) : Prop :=
  ∃ m₀, inv m₀ ∧ Took m₀ temp index m

theorem sameMap_tlb (m : Machine) (tlb : Nat → TlbEntry) (asid : Nat) :
    SameMap m (m.withTlb tlb asid) :=
  ⟨rfl, rfl, rfl, fun _ => rfl, fun _ => rfl, fun _ h => h, fun _ _ _ _ h => h⟩

theorem Laid.pa_ne_zero (hlaid : m.Laid start frames top) (hlowest : m.gblBmp.Lowest index)
    (hlt : index < m.gblBmp.nbits) : (m.coremap index).pa ≠ 0 := by
  have hge := hlaid.lowest_ge hlowest
  rw [hlaid.bits] at hlt
  rw [hlaid.pa index hge hlt]
  simp only [PAGE_SIZE]
  omega

theorem getSinglepage_holds (hholds : m.Holds start frames head n) :
    Prog.wp getSinglepage
      (fun r m' => if r.1 ≠ 0 then m.Took r.1 r.2 m' else m' = m ∧ r.2 = 0)
      (fun _ _ => False) (fun _ => True) m := by
  apply getSinglepage_wp trivial
  · intro _
    exact ⟨rfl, rfl⟩
  · intro index hlowest hlt
    obtain ⟨top, hlaid⟩ := hholds.1
    rw [if_pos (hlaid.pa_ne_zero hlowest hlt)]
    exact ⟨hlowest, hlt, rfl, rfl⟩

theorem TookFrom.taken (htook : TookFrom (Holds start frames head n) temp index m) :
    m.Framed start frames ∧ Taken start frames temp index m := by
  obtain ⟨m₀, ⟨⟨top, hlaid⟩, -⟩, ⟨hlowest, hlt, rfl, rfl⟩⟩ := htook
  exact ⟨hlaid.toFramed.reframed (reframed_took m₀ index),
    hlaid.toFramed.taken_took hlowest hlt⟩

/-- Once `pt_insert` has written the entry of the frame taken, the layout holds
again. -/
theorem TookFrom.holds (htook : TookFrom (Holds start frames head n) temp index m)
    (hva : OwnVa start frames index va) (hstart : m'.memStart = m.memStart)
    (hmax : m'.maxPageNum = m.maxPageNum) (hbits : m'.gblBmp = m.gblBmp)
    (hentry : (m'.coremap index).va = va ∧ (m'.coremap index).pa = temp)
    (hothers : ∀ i, i ≠ index → m'.coremap i = m.coremap i)
    (htables : ∀ a t, 512 ≤ t → t < 768 → (m.addrspace a).firstpt t = none →
      (m'.addrspace a).firstpt t = none) : m'.Holds start frames head n := by
  obtain ⟨m₀, hholds, ⟨hlowest, hlt, rfl, rfl⟩⟩ := htook
  have hsame (i : Nat) (hne : i ≠ index) : m'.coremap i = m₀.coremap i := by
    rw [hothers i hne]
    exact Function.update_of_ne hne ..
  have hfill : m₀.Fill index va m' := by
    refine ⟨hstart, hmax, hbits, ?_, ?_, ?_, htables⟩
    · intro i
      by_cases heq : i = index
      · rw [heq, hentry.2]
      · rw [hsame i heq]
    · intro i
      by_cases heq : i = index
      · rw [if_pos heq, heq, hentry.1]
      · rw [if_neg heq, hsame i heq]
    · intro i hne
      rw [hsame i hne]
  exact hfill.holds hholds hva hlowest hlt

theorem setPte_tables (m : Machine) (a : AsId) (va : Nat) (entry : Int) (a' : AsId) (t : Nat)
    (hnone : (m.addrspace a').firstpt t = none) :
    ((m.setPte a va entry).addrspace a').firstpt t = none := by
  by_cases ha : a' = a
  · rw [ha] at hnone ⊢
    by_cases ht : t = topten va
    · rw [ht] at hnone ⊢
      simp [setPte, hnone]
    · simp [setPte, ht, hnone]
  · simp [setPte, ha, hnone]

section Room

variable (hroom : start + frames * PAGE_SIZE ≤ 0x20000000)

include hroom

theorem giveFrame_holds (a : AsId) (fa : Nat) (hfa : ¬ Unmapped fa)
    (htook : TookFrom (Holds start frames head n) temp index m) :
    Prog.wp (giveFrame a fa temp index) (fun _ m' => m'.Holds start frames head n)
      (fun _ m' => m'.Holds start frames head n) (fun _ => True) m := by
  obtain ⟨hframed, htaken⟩ := htook.taken
  simp only [giveFrame, setCoremap, ↓Prog.wp_bind, ↓Prog.wp_modify, wp_writePte]
  split
  case isFalse => trivial
  case isTrue =>
      have hframed₁ : ((m.withNpages index).setPte a fa (index * 2)).Framed start frames :=
        hframed.reframed ⟨rfl, rfl, rfl, fun _ _ h => h, pa_update rfl⟩
      have htaken₁ : Taken start frames temp index
          ((m.withNpages index).setPte a fa (index * 2)) :=
        ⟨htaken.ge, htaken.lt, htaken.temp, htaken.marked⟩
      show Prog.wp (ptInsert _ _) _ _ _ ((m.withNpages index).setPte a fa (index * 2))
      rw [htaken₁.ptInsert (by omega) hframed₁]
      refine htook.holds (ownVa_of_mapped hroom hfa) rfl rfl rfl ?_ ?_ ?_
      · simp [inserted]
      · intro i hne
        simp [inserted, setPte, withNpages, hne]
      · intro a' t _ _ hnone
        exact setPte_tables (m.withNpages index) a fa _ a' t hnone

theorem kmallocTable_holds :
    Keeps (Holds start frames head n) (fun _ => True) kmallocTable := by
  intro m hholds
  simp only [kmallocTable, ↓Prog.wp_bind]
  refine Prog.wp_mono (getSinglepage_holds hholds) ?_ (fun _ _ h => h.elim) (fun _ h => h)
  intro r m₁ hr
  simp only [↓Prog.wp_assert, setCoremap, ↓Prog.wp_modify]
  split
  case isFalse => trivial
  case isTrue hne =>
      rw [if_pos hne] at hr
      have htook : TookFrom (Holds start frames head n) r.1 r.2 m₁ := ⟨m, hholds, hr⟩
      obtain ⟨hframed, htaken⟩ := htook.taken
      have hframed₁ : (m₁.withNpages r.2).Framed start frames :=
        hframed.reframed ⟨rfl, rfl, rfl, fun _ _ h => h, pa_update rfl⟩
      have htaken₁ : Taken start frames r.1 r.2 (m₁.withNpages r.2) :=
        ⟨htaken.ge, htaken.lt, htaken.temp, htaken.marked⟩
      show Prog.wp (ptInsert _ _) _ _ _ (m₁.withNpages r.2)
      rw [htaken₁.ptInsert (by omega) hframed₁]
      have hkva : r.1 + KSEG0 = kva start r.2 := by
        rw [htaken.temp, kva]
      refine htook.holds (hkva ▸ ownVa_kva start frames r.2) rfl rfl rfl ?_ ?_
        (fun _ _ _ _ h => h)
      · simp [inserted]
      · intro i hne'
        simp [inserted, withNpages, hne']

theorem makeTable_holds (a : AsId) (va : Nat) (hva : ¬ Unmapped va) :
    Keeps (Holds start frames head n) (fun _ => True) (makeTable a va) := by
  intro m hholds
  simp only [makeTable, setAddrspace, ↓Prog.wp_bind, ↓Prog.wp_get, ↓Prog.wp_when,
    ↓Prog.wp_modify]
  split
  case isFalse => exact hholds
  case isTrue =>
      refine Prog.wp_mono (kmallocTable_holds hroom m hholds) ?_ (fun _ _ h => h)
        (fun _ h => h)
      intro table m' hholds'
      refine hholds'.sameMap ⟨rfl, rfl, rfl, fun _ => rfl, fun _ => rfl, fun _ h => h, ?_⟩
      intro a' t hlow hhigh hnone
      have hne : t ≠ topten va := by
        intro heq
        simp only [Unmapped, KSEG0, topten] at hva heq
        omega
      by_cases ha : a' = a
      · rw [ha] at hnone
        simp [Addrspace.writeFirstpt, ha, hne, hnone]
      · simp [ha, hnone]

end Room

theorem Holds.findFifo_apart (hroom : start + frames * PAGE_SIZE ≤ 0x20000000)
    (hholds : m.Holds start frames head n) (hvictim : m.Evictable slot a) :
    ¬ (head ≤ m.findFifo ∧ m.findFifo < head + n) := by
  obtain ⟨⟨top, hlaid⟩, hblock⟩ := hholds
  rintro ⟨hlow, hhigh⟩
  have hlt := hvictim.lt
  rw [hlaid.bits] at hlt
  apply mapped_of_table hlaid hvictim.table
  rw [hblock.va _ hlow hhigh]
  exact unmapped_kva hroom hlt

theorem release_evicted (m : Machine) (slot : Nat) (a : AsId) :
    m.Release m.findFifo (m.evicted slot a) where
  memStart := rfl
  maxPageNum := rfl
  nbits := rfl
  bits i := Bitmap.isset_unmark _ i
  pa i _ _ := by
    refine pa_update ?_ i
    rfl
  va i := va_update i
  npages i hne := by
    show (Function.update m.coremap m.findFifo _ i).npages = _
    rw [Function.update_of_ne hne]
  tables a' t _ _ hnone := setPte_tables m a _ _ a' t hnone

theorem fill_swappedIn (m : Machine) (slot index : Nat) (a : AsId) :
    m.Fill index (m.swapHolder slot).va (m.swappedIn slot index a) where
  memStart := rfl
  maxPageNum := rfl
  bits := rfl
  pa i := by
    refine pa_update ?_ i
    rfl
  va i := va_update i
  npages i hne := by
    show (Function.update m.coremap index _ i).npages = _
    rw [Function.update_of_ne hne]
  tables a' t _ _ hnone := setPte_tables m a _ _ a' t hnone

theorem sameMap_locked (m : Machine) (index : Nat) (ram : Nat → Byte) :
    SameMap m { m with
      ram := ram
      coremap := Function.update m.coremap index { m.coremap index with locked := true } } := by
  refine ⟨rfl, rfl, rfl, pa_update rfl, ?_, ?_, fun _ _ _ _ h => h⟩
  · intro i
    simp only [va_update]
    split
    case isTrue heq => rw [heq]
    case isFalse => rfl
  · intro i hne
    by_cases heq : i = index
    · rw [heq] at hne ⊢
      simpa using hne
    · simpa [heq] using hne

theorem refill_holds (a : AsId) (va : Nat) :
    Keeps (Holds start frames head n) (fun _ => True) (refill a va) := by
  intro m hholds
  simp only [refill, ↓Prog.wp_bind, ↓Prog.wp_get]
  have hload : Prog.wp (loadPage (m.addrspace a) a va)
      (fun _ m' => m'.Holds start frames head n) (fun _ m' => m'.Holds start frames head n)
      (fun _ => True) m := by
    unfold loadPage
    split
    case h_1 => exact hholds
    case h_2 =>
        simp only [↓Prog.wp_bind]
        refine Prog.wp_mono (frameIndex_wp m a va) ?_ (fun _ _ h => h.elim) (fun _ h => h)
        rintro index m' ⟨rfl, -⟩
        simp only [↓Prog.wp_get, setCoremap, ↓Prog.wp_modify]
        refine Prog.wp_mono (pageRead_wp _ _ _ _ _ _) ?_ ?_ (fun _ _ => trivial)
        · rintro _ _ rfl
          exact hholds.sameMap (sameMap_locked m' index _)
        · rintro _ _ rfl
          exact hholds.sameMap (sameMap_locked m' index _)
  refine Prog.wp_mono hload ?_ (fun _ _ h => h) (fun _ h => h)
  intro _ m₁ hholds₁
  refine Prog.wp_mono (frameIndex_wp m₁ a va) ?_ (fun _ _ h => h.elim) (fun _ h => h)
  rintro index m' ⟨rfl, -⟩
  refine Prog.wp_mono (tlbInsert_wp m' _ m'.asid) ?_ (fun _ _ h => h.elim) (fun _ h => h)
  rintro _ m₂ ⟨⟨tlb, rfl⟩, -⟩
  exact hholds₁.sameMap (sameMap_tlb m' tlb _)

theorem mapped_of_miss (hmiss : m.translate va = none) : ¬ Unmapped (pageFrame va) := by
  intro hkernel
  have hseg : KSEG0 ≤ va ∧ va < 0xc0000000 := by
    simp only [Unmapped, pageFrame, PAGE_SIZE, KSEG0] at hkernel ⊢
    omega
  rw [translate, if_pos hseg] at hmiss
  cases hmiss

theorem holds_pagerKeeps (hroom : start + frames * PAGE_SIZE ≤ 0x20000000) :
    PagerKeeps (Holds start frames head n) (fun _ => True)
      (TookFrom (Holds start frames head n)) (fun va => ¬ Unmapped va) where
  miss _ _ _ hmiss := mapped_of_miss hmiss
  panics _ _ := trivial
  growStack a va m hholds := by
    apply growStack_wp
    intro base
    refine hholds.sameMap ⟨rfl, rfl, rfl, fun _ => rfl, fun _ => rfl, fun _ h => h, ?_⟩
    intro a' t _ _ hnone
    by_cases ha : a' = a
    · rw [ha] at hnone
      simp [withStackvbase, ha, hnone]
    · simp [withStackvbase, ha, hnone]
  makeTable a va hva := makeTable_holds hroom a va hva
  getSinglepage m hholds := by
    refine Prog.wp_mono (getSinglepage_holds hholds) ?_ (fun _ _ h => h.elim) (fun _ h => h)
    intro r m' hr
    split at hr
    case isTrue hfound =>
        rw [if_pos hfound]
        exact ⟨m, hholds, hr⟩
    case isFalse hnone =>
        rw [if_neg hnone, hr.1]
        exact hholds
  giveFrame a fa temp index m hfa htook := giveFrame_holds hroom a fa hfa htook
  evicted m slot a hholds hvictim :=
    (release_evicted m slot a).holds hholds (findFifo_ge m) (hholds.findFifo_apart hroom hvictim)
  swappedIn m slot index a hholds hlowest hlt _ htable := by
    obtain ⟨top, hlaid⟩ := hholds.1
    exact (fill_swappedIn m slot index a).holds hholds
      (ownVa_of_mapped hroom (mapped_of_table hlaid htable)) hlowest hlt
  lhClear m free hholds := hholds.sameMap
    ⟨rfl, rfl, rfl, fun _ => rfl, fun _ => rfl, fun _ h => h, fun _ _ _ _ h => h⟩
  copyOut slot pa m hholds := hholds.sameMap
    ⟨rfl, rfl, rfl, fun _ => rfl, fun _ => rfl, fun _ h => h, fun _ _ _ _ h => h⟩
  copyIn slot pa m hholds := hholds.sameMap
    ⟨rfl, rfl, rfl, fun _ => rfl, fun _ => rfl, fun _ h => h, fun _ _ _ _ h => h⟩
  tlbDrop va m hholds := by
    refine Prog.wp_mono (tlbDrop_returns m va m.asid) ?_ (fun _ _ h => h.elim)
      (fun _ _ => trivial)
    rintro _ _ ⟨tlb, asid, rfl⟩
    exact hholds.sameMap (sameMap_tlb m tlb asid)
  refill a va := refill_holds a _

end OS161.VM.Machine
