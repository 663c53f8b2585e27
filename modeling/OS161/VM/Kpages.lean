import OS161.VM.Frames

namespace OS161.VM.Machine

open OS161.Data
open OS161.Kern
open OS161.Lib

/-! Pages for the kernel itself, once `coremap_init` is through, and the end of
an address space. -/

/-- `PADDR_TO_KVADDR`. -/
def paddrToKvaddr (paddr : Nat) : Nat := (paddr + KSEG0) % 2 ^ 32

/-- The loop of `getppages` over the bits of `gbl_bmp`: where it stopped and the
clear bits it has counted in a row. -/
def scanFree (m : Machine) (npages : Nat) : (turns i count : Nat) → Nat × Nat
  | 0, i, count => (i, count)
  | turns + 1, i, count =>
      if m.gblBmp.bitmapIsset i then scanFree m npages turns (i + 1) 0
      else if count + 1 = npages then (i, count + 1)
      else scanFree m npages turns (i + 1) (count + 1)

/-- One turn of the loop that takes the frames found. -/
def takeFrame (index i : Nat) : Op Unit := do
  onGblBmp (Bitmap.bitmapMark (index + i))
  let m ← Prog.get
  let paddr := (m.coremap (index + i)).pa
  ptInsert (paddrToKvaddr paddr) paddr

/-- The words that stand in the locals `index` and `count` before they are set. -/
structure Unset where
  index : Nat
  count : Nat

/-- A failed `get_singlepage` leaves `index` unset, and its `npages` is written
all the same. -/
def getppages (npages : Nat) (unset : Unset) : Op Nat := do
  Prog.assert (npages > 0) .getppagesZero
  if npages = 1 then do
    let (paddr, found) ← getSinglepage
    let index := if paddr = 0 ∧ found = 0 then unset.index else found
    let m ← Prog.get
    Prog.assert (index < m.maxPageNum) .coremapRange
    setCoremap index fun e => { e with npages := npages }
    if paddr = 0 then pure 0
    else do
      ptInsert (paddrToKvaddr paddr) paddr
      pure (pageFrame paddr)
  else do
    let m ← Prog.get
    let (i, count) := m.scanFree npages m.maxPageNum 0 unset.count
    if count ≠ npages then pure 0
    else do
      let index := i + 1 - count
      Prog.forFrom (fun i _ => takeFrame index i) count 0 ()
      setCoremap index fun e => { e with npages := npages }
      let m ← Prog.get
      pure (pageFrame (m.coremap index).pa)

def allocKpages (npages : Nat) (unset : Unset) : Op Nat := do
  let pa ← getppages npages unset
  if pa = 0 then pure 0
  else pure (paddrToKvaddr pa)

def coremapRemove (paddr : Nat) (index : Int) : Op Unit := do
  let m ← Prog.get
  if index > m.maxPageNum then pure ()
  else do
    Prog.assert (0 ≤ index) .coremapRange
    let index := index.toNat
    Prog.assert (pageFrame (m.coremap index).pa = pageFrame paddr) .coremapRemovePa
    setCoremap index fun e => { e with
      va := 0
      valid := false
      npages := 0
      pa := pageFrame paddr }
    Prog.when (m.gblBmp.bitmapIsset index = true) (onGblBmp (Bitmap.bitmapUnmark index))

/-- The index of the first entry from `i` on that records `addr`, or the end of
the array. -/
def findVa (m : Machine) (addr : Nat) : (turns i : Nat) → Nat
  | 0, i => i
  | turns + 1, i => if (m.coremap i).va = addr then i else findVa m addr turns (i + 1)

/-- The loop of `free_kpages`, which looks up `npages` before every turn. -/
def freeRun (i : Nat) : (turns j : Nat) → Op Unit
  | 0, _ => pure ()
  | turns + 1, j => do
      let m ← Prog.get
      Prog.when (j < (m.coremap i).npages) (do
        coremapRemove (m.coremap (i + j)).pa ((i + j : Nat) : Int)
        freeRun i turns (j + 1))

def freeKpages (addr : Nat) : Op Unit := do
  let m ← Prog.get
  let i := m.findVa addr (m.maxPageNum - 3) 3
  Prog.when ((m.coremap i).va = addr) (freeRun i ((m.coremap i).npages + 1) 0)

/-! `as_destroy`. -/

/-- `kfree` of a whole page. -/
def kfreePage (addr : Nat) : Op Unit := Prog.when (addr ≠ 0) (freeKpages addr)

/-- Where the parts of an address space lie: the page of each second-level
table, that of the first-level table, and the page that `kfree` gives back with
the structure itself, or zero. -/
structure AsPages where
  table : Nat → Nat
  firstpt : Nat
  self : Nat

/-- The test of slot 0, before and after the pages go. -/
def asDestroyFlush : Op Unit := do
  let m ← Prog.get
  let e ← tlbRead 0
  Prog.when (e.elo ≠ 0 ∧ e.pid = m.pid) tlbFlush

/-- The loop over the entries of one table. -/
def removeEntries (table : Nat → Int) : Op Unit :=
  Prog.forFrom (fun j _ => Prog.when ((table j).tdiv 2 ≠ 0) (do
    let m ← Prog.get
    coremapRemove (m.coremap ((table j).tdiv 2).toNat).pa ((table j).tdiv 2))) 1024 0 ()

/-- `rest` is what stands in the memory of the structure afterwards. -/
def asDestroy (a : AsId) (pages : AsPages) (rest : Addrspace) : Op Unit := do
  asDestroyFlush
  let as := (← Prog.get).addrspace a
  Prog.forFrom (fun i _ =>
    match as.firstpt i with
    | none => pure ()
    | some table => do
        removeEntries table
        kfreePage (pages.table i)) 1023 1 ()
  kfreePage pages.firstpt
  kfreePage pages.self
  setAddrspace a fun _ => rest
  asDestroyFlush

/-! What giving frames back does. -/

variable {m : Machine} {post : Unit → Machine → Prop} {fails : Errno → Machine → Prop}
variable {bad : Fault → Prop}

/-- The machine after `coremap_remove` of a frame at its own address. -/
def removed (m : Machine) (index : Nat) : Machine :=
  { m with
    coremap := Function.update m.coremap index
      { m.coremap index with
        va := 0
        valid := false
        npages := 0
        pa := pageFrame (m.coremap index).pa }
    gblBmp := if m.gblBmp.bitmapIsset index = true then m.gblBmp.unmark index else m.gblBmp }

theorem isset_removed (m : Machine) (index i : Nat) :
    (m.removed index).gblBmp.bitmapIsset i =
      (m.gblBmp.bitmapIsset i && decide (i ≠ index)) := by
  unfold removed
  dsimp only
  split
  case isTrue => exact Bitmap.isset_unmark index i
  case isFalse hclear =>
      by_cases heq : i = index
      · rw [heq, Bool.eq_false_iff.mpr hclear, Bool.false_and]
      · simp [heq]

theorem coremapRemove_wp (index : Int)
    (hbad : index ≤ m.maxPageNum → index < 0 ∨ (m.gblBmp.nbits : Int) ≤ index →
      ∀ reason, bad reason)
    (hskip : (m.maxPageNum : Int) < index → post () m)
    (hremoved : ∀ i : Nat, index = i → i ≤ m.maxPageNum → post () (m.removed i)) :
    Prog.wp (coremapRemove (m.coremap index.toNat).pa index) post fails bad m := by
  simp only [coremapRemove, onGblBmp, setCoremap, ↓Prog.wp_bind, ↓Prog.wp_get, ↓Prog.wp_ite,
    ↓Prog.wp_pure, ↓Prog.wp_assert, ↓Prog.wp_modify, ↓Prog.wp_when, ↓Prog.wp_zoom,
    Bitmap.wp_bitmapUnmark]
  split
  case isTrue hlarge => exact hskip hlarge
  case isFalse hrange =>
  split
  case isFalse hneg => exact hbad (by omega) (Or.inl (by omega)) _
  case isTrue hnonneg =>
  have hpost := hremoved index.toNat (Int.toNat_of_nonneg hnonneg).symm (by omega)
  simp only [if_true, removed] at hpost ⊢
  split
  case isFalse hclear => simpa only [if_neg hclear] using hpost
  case isTrue hset =>
      split
      case isFalse hlarge => exact hbad (by omega) (Or.inr (by omega)) _
      case isTrue => simpa only [if_pos hset] using hpost

/-- Past the end of the coremap nothing is removed. -/
theorem freeRun_past (hlarge : m.maxPageNum < i) (turns j : Nat) (hpost : post () m) :
    Prog.wp (freeRun i turns j) post fails bad m := by
  induction turns generalizing j with
  | zero => exact hpost
  | succ turns ih =>
      simp only [freeRun, ↓Prog.wp_bind, ↓Prog.wp_get, ↓Prog.wp_when]
      split
      case isFalse => exact hpost
      case isTrue =>
          apply @coremapRemove_wp m _ _ _ ((i + j : Nat) : Int)
          · intro hle
            omega
          · intro _
            exact ih (j + 1)
          · intro k hk hle
            omega

/-- The first turn of the loop in `free_kpages` empties the entry whose `npages`
bounds it, so there is no second turn. -/
theorem freeRun_wp (i : Nat)
    (hbad : i ≤ m.maxPageNum → m.gblBmp.nbits ≤ i → ∀ reason, bad reason)
    (hskip : m.maxPageNum < i → post () m)
    (hnone : (m.coremap i).npages = 0 → post () m)
    (hremoved : (m.coremap i).npages ≠ 0 → i ≤ m.maxPageNum → post () (m.removed i)) :
    Prog.wp (freeRun i ((m.coremap i).npages + 1) 0) post fails bad m := by
  simp only [freeRun, ↓Prog.wp_bind, ↓Prog.wp_get, ↓Prog.wp_when]
  split
  case isFalse hzero => exact hnone (by omega)
  case isTrue hpos =>
      apply @coremapRemove_wp m _ _ _ ((i + 0 : Nat) : Int)
      · intro hle hrange
        exact hbad (by omega) (by omega)
      · intro hlarge
        exact freeRun_past (by omega) _ _ (hskip (by omega))
      · intro k hk hle
        obtain rfl : i = k := by omega
        have hdone := hremoved (by omega) hle
        have hempty : ((m.removed i).coremap i).npages = 0 := by
          simp [removed]
        cases hturns : (m.coremap i).npages with
        | zero => exact hdone
        | succ turns =>
            simp only [freeRun, ↓Prog.wp_bind, ↓Prog.wp_get, ↓Prog.wp_when]
            rw [if_neg (by omega)]
            exact hdone

theorem findVa_ge (m : Machine) (addr turns i : Nat) : i ≤ m.findVa addr turns i := by
  induction turns generalizing i with
  | zero => exact Nat.le_refl i
  | succ turns ih =>
      unfold findVa
      split
      case isTrue => exact Nat.le_refl i
      case isFalse => exact Nat.le_of_succ_le (ih (i + 1))

/-- The search ends at an entry where the entries before it record other
addresses. -/
theorem findVa_eq (hva : (m.coremap index).va = addr) (hlow : i ≤ index)
    (hhigh : index < i + turns)
    (hbelow : ∀ k, i ≤ k → k < index → (m.coremap k).va ≠ addr) :
    m.findVa addr turns i = index := by
  induction turns generalizing i with
  | zero => omega
  | succ turns ih =>
      unfold findVa
      split
      case isTrue hfound =>
          by_contra hne
          exact hbelow i (Nat.le_refl i) (by omega) hfound
      case isFalse hother =>
          have hne : i ≠ index := by
            intro heq
            rw [heq] at hother
            exact hother hva
          apply ih (by omega) (by omega)
          intro k hk hlt
          exact hbelow k (by omega) hlt

theorem freeKpages_wp (addr : Nat) (hnone : post () m)
    (hremoved : ∀ i, i = m.findVa addr (m.maxPageNum - 3) 3 → 3 ≤ i →
      (m.coremap i).va = addr → post () (m.removed i)) :
    Prog.wp (freeKpages addr) post fails (fun _ => True) m := by
  simp only [freeKpages, ↓Prog.wp_bind, ↓Prog.wp_get, ↓Prog.wp_when]
  split
  case isFalse => exact hnone
  case isTrue hva =>
      apply freeRun_wp
      · exact fun _ _ _ => trivial
      · intro _
        exact hnone
      · intro _
        exact hnone
      · intro _ _
        exact hremoved _ rfl (findVa_ge m addr _ 3) hva

/-! What `as_destroy` gives back. -/

/-- An entry of the page tables holds the number, as a frame or as a swap slot. -/
def Names (m : Machine) (a : AsId) (i : Nat) : Prop :=
  i ≠ 0 ∧ ∃ top table btm, (m.addrspace a).firstpt top = some table ∧ (table btm).tdiv 2 = i

/-- One of the pages that hold the address space itself. -/
def AsPages.Has (pages : AsPages) (addr : Nat) : Prop :=
  addr ≠ 0 ∧ (addr = pages.firstpt ∨ addr = pages.self ∨ ∃ top, addr = pages.table top)

section Destroy

variable {a : AsId} {pages : AsPages} {rest : Addrspace} {inv : Machine → Prop}

theorem asDestroyFlush_keeps (htlb : ∀ m tlb asid, inv m → inv (m.withTlb tlb asid))
    (hm : inv m) :
    Prog.wp asDestroyFlush (fun _ m' => inv m') fails (fun _ => True) m := by
  simp only [asDestroyFlush, tlbRead, ↓Prog.wp_bind, ↓Prog.wp_get, ↓Prog.wp_modify,
    ↓Prog.wp_pure, ↓Prog.wp_when]
  have hread := htlb m m.tlb (m.tlb 0).pid hm
  split
  case isFalse => exact hread
  case isTrue =>
      refine Prog.wp_mono (tlbFlush_returns _) ?_ (fun _ _ h => h.elim) (fun _ h => h.elim)
      rintro _ m' ⟨tlb, rfl, -⟩
      exact htlb _ tlb 0 hread

/-- What every frame that may go leaves alone, the whole call leaves alone. -/
theorem asDestroy_keeps (hremove : ∀ m' i, inv m' → m.Names a i → inv (m'.removed i))
    (hfree : ∀ m' i, inv m' → 3 ≤ i → pages.Has (m'.coremap i).va → inv (m'.removed i))
    (htlb : ∀ m' tlb asid, inv m' → inv (m'.withTlb tlb asid))
    (hrest : ∀ m', inv m' →
      inv { m' with addrspace := Function.update m'.addrspace a rest })
    (hm : inv m) :
    Prog.wp (asDestroy a pages rest) (fun _ m' => inv m') fails (fun _ => True) m := by
  have hpage (m' : Machine) (addr : Nat) (hm' : inv m') (haddr : addr ≠ 0 → pages.Has addr) :
      Prog.wp (kfreePage addr) (fun _ m' => inv m') fails (fun _ => True) m' := by
    simp only [kfreePage, ↓Prog.wp_when]
    split
    case isFalse => exact hm'
    case isTrue hne =>
        apply freeKpages_wp addr hm'
        intro i _ hlow hva
        apply hfree m' i hm' hlow
        rw [hva]
        exact haddr hne
  have hentries (m' : Machine) (top : Nat) (table : Nat → Int) (hm' : inv m')
      (htable : (m.addrspace a).firstpt top = some table) :
      Prog.wp (removeEntries table) (fun _ m' => inv m') fails (fun _ => True) m' := by
    unfold removeEntries
    apply Prog.wp_forFrom (fun _ _ m' => inv m') _ hm'
    intro j _ m₁ _ _ hm₁
    simp only [↓Prog.wp_when, ↓Prog.wp_bind, ↓Prog.wp_get]
    split
    case isFalse => exact hm₁
    case isTrue hentry =>
        apply coremapRemove_wp
        · exact fun _ _ _ => trivial
        · intro _
          exact hm₁
        · intro i hi _
          refine hremove m₁ i hm₁ ⟨?_, top, table, j, htable, hi⟩
          intro hzero
          rw [hi, hzero] at hentry
          exact hentry rfl
  simp only [asDestroy, setAddrspace, ↓Prog.wp_bind, ↓Prog.wp_get, ↓Prog.wp_modify]
  have hflush : ∀ m' tlb asid, inv m' ∧ m'.addrspace a = m.addrspace a →
      inv (m'.withTlb tlb asid) ∧ (m'.withTlb tlb asid).addrspace a = m.addrspace a := by
    intro m' tlb asid hm'
    exact ⟨htlb m' tlb asid hm'.1, hm'.2⟩
  refine Prog.wp_mono (asDestroyFlush_keeps hflush ⟨hm, rfl⟩) ?_ (fun _ _ h => h)
    (fun _ h => h)
  rintro _ m₁ ⟨hm₁, has⟩
  rw [has]
  refine Prog.wp_mono (Prog.wp_forFrom (fun _ _ m' => inv m') ?_ hm₁) ?_ (fun _ _ h => h)
    (fun _ h => h)
  · intro i _ m₂ _ _ hm₂
    split
    case h_1 => exact hm₂
    case h_2 table htable =>
        simp only [↓Prog.wp_bind]
        refine Prog.wp_mono (hentries m₂ i table hm₂ htable) ?_ (fun _ _ h => h) (fun _ h => h)
        intro _ m₃ hm₃
        apply hpage m₃ _ hm₃
        intro hne
        exact ⟨hne, Or.inr (Or.inr ⟨i, rfl⟩)⟩
  · intro _ m₂ hm₂
    refine Prog.wp_mono (hpage m₂ pages.firstpt hm₂ ?_) ?_ (fun _ _ h => h) (fun _ h => h)
    · intro hne
      exact ⟨hne, Or.inl rfl⟩
    · intro _ m₃ hm₃
      refine Prog.wp_mono (hpage m₃ pages.self hm₃ ?_) ?_ (fun _ _ h => h) (fun _ h => h)
      · intro hne
        exact ⟨hne, Or.inr (Or.inl rfl)⟩
      · intro _ m₄ hm₄
        exact asDestroyFlush_keeps htlb (hrest m₄ hm₄)

end Destroy

end OS161.VM.Machine
