import OS161.VM.MissRule

namespace OS161.VM.Machine

open OS161.Data
open OS161.Kern
open OS161.Lib

/-! The coremap is the inverse of all page tables together. -/

variable {m m' : Machine} {a : AsId} {va fa : Nat} {cur : Option AsId}

/-- The page-table entry of the page at `va` is even and not zero. -/
structure Resident (m : Machine) (a : AsId) (va : Nat) (frame : Int) : Prop where
  aligned : va % PAGE_SIZE = 0
  nonzero : frame ≠ 0
  entry : m.pte a va = some (frame * 2)

/-- The frame is in use and its coremap entry records the page. -/
structure Owns (m : Machine) (a : AsId) (va : Nat) (frame : Nat) : Prop where
  lt : frame < m.maxPageNum
  marked : m.gblBmp.bitmapIsset frame = true
  va : pageFrame (m.coremap frame).va = va
  addr : (m.coremap frame).addr = some a

structure Owned (m : Machine) : Prop where
  base : 0 < m.memStart
  room : m.memStart + m.maxPageNum * PAGE_SIZE ≤ 2 ^ 32
  bits : m.gblBmp.nbits = m.maxPageNum
  reserved : ∀ i < 3, m.gblBmp.bitmapIsset i = true
  pa : ∀ i, 3 ≤ i → i < m.maxPageNum → (m.coremap i).pa = m.memStart + i * PAGE_SIZE
  resident : ∀ a va frame, m.Resident a va frame → ∃ n : Nat, frame = n ∧ m.Owns a va n

/-- What the pager keeps while one thread runs. -/
structure Sound (cur : Option AsId) (m : Machine) : Prop extends Owned m where
  current : m.tVmspace = cur
  zeroed : ∀ n j, m.kmallocWords n j = 0

/-- No page is in the frame. -/
def Unnamed (m : Machine) (frame : Nat) : Prop :=
  ∀ a va, ¬ m.Resident a va frame

theorem Unnamed.congr (hunnamed : m.Unnamed frame)
    (hpte : ∀ a va, m'.pte a va = m.pte a va) : m'.Unnamed frame := by
  intro a va hres
  exact hunnamed a va ⟨hres.aligned, hres.nonzero, hpte a va ▸ hres.entry⟩

theorem Owned.unnamed_of_clear (howned : m.Owned)
    (hclear : m.gblBmp.bitmapIsset frame = false) : m.Unnamed frame := by
  intro a va hres
  obtain ⟨n, hframe, howns⟩ := howned.resident a va frame hres
  obtain rfl : frame = n := by omega
  rw [howns.marked] at hclear
  cases hclear

theorem Owned.lowest_ge (howned : m.Owned) (hlowest : m.gblBmp.Lowest index) :
    3 ≤ index := by
  by_contra hlt
  have hset := howned.reserved index (by omega)
  rw [hlowest.clear] at hset
  cases hset

theorem samePte_of_pageFrame (ha : a' = a) (hva : pageFrame va = va') :
    SamePte a va a' va' := by
  simp only [pageFrame, PAGE_SIZE] at hva
  simp only [SamePte, topten, btmten]
  exact ⟨ha, by omega, by omega⟩

theorem pageFrame_of_samePte (hva : va' % PAGE_SIZE = 0) (hsame : SamePte a va a' va') :
    a' = a ∧ pageFrame va = va' := by
  obtain ⟨ha, htop, hbtm⟩ := hsame
  simp only [topten, btmten, PAGE_SIZE, pageFrame] at htop hbtm hva ⊢
  exact ⟨ha, by omega⟩

/-- The tables agree on everything that ownership speaks about. -/
structure SameFrames (m m' : Machine) : Prop where
  memStart : m'.memStart = m.memStart
  maxPageNum : m'.maxPageNum = m.maxPageNum
  gblBmp : m'.gblBmp = m.gblBmp
  pte : ∀ a va, m'.pte a va = m.pte a va
  pa : ∀ n, (m'.coremap n).pa = (m.coremap n).pa
  va : ∀ n, (m'.coremap n).va = (m.coremap n).va
  addr : ∀ n, (m'.coremap n).addr = (m.coremap n).addr

/-- Changes to frames that no page is in. -/
structure OtherFrames (m m' : Machine) : Prop where
  memStart : m'.memStart = m.memStart
  maxPageNum : m'.maxPageNum = m.maxPageNum
  nbits : m'.gblBmp.nbits = m.gblBmp.nbits
  marked : ∀ n, m.gblBmp.bitmapIsset n = true → m'.gblBmp.bitmapIsset n = true
  pte : ∀ a va, m'.pte a va = m.pte a va
  pa : ∀ n, (m'.coremap n).pa = (m.coremap n).pa
  named : ∀ n, ¬ m.Unnamed n → (m'.coremap n).va = (m.coremap n).va ∧
    (m'.coremap n).addr = (m.coremap n).addr

theorem SameFrames.otherFrames (hsame : SameFrames m m') : OtherFrames m m' where
  memStart := hsame.memStart
  maxPageNum := hsame.maxPageNum
  nbits := by rw [hsame.gblBmp]
  marked n := by
    rw [hsame.gblBmp]
    exact fun h => h
  pte := hsame.pte
  pa := hsame.pa
  named n _ := ⟨hsame.va n, hsame.addr n⟩

theorem OtherFrames.resident_iff (hother : OtherFrames m m') (a : AsId) (va : Nat)
    (frame : Int) : m'.Resident a va frame ↔ m.Resident a va frame := by
  constructor
  · rintro ⟨haligned, hnonzero, hentry⟩
    exact ⟨haligned, hnonzero, hother.pte a va ▸ hentry⟩
  · rintro ⟨haligned, hnonzero, hentry⟩
    exact ⟨haligned, hnonzero, (hother.pte a va).trans hentry⟩

theorem Owned.otherFrames (howned : m.Owned) (hother : OtherFrames m m') : m'.Owned where
  base := by
    rw [hother.memStart]
    exact howned.base
  room := by
    rw [hother.memStart, hother.maxPageNum]
    exact howned.room
  bits := by
    rw [hother.nbits, hother.maxPageNum]
    exact howned.bits
  reserved i hi := hother.marked i (howned.reserved i hi)
  pa i hlow hi := by
    rw [hother.pa, hother.memStart]
    exact howned.pa i hlow (hother.maxPageNum ▸ hi)
  resident a va frame hres := by
    have hres' := (hother.resident_iff a va frame).mp hres
    obtain ⟨n, rfl, howns⟩ := howned.resident a va frame hres'
    have hnamed := hother.named n (fun hun => hun a va hres')
    refine ⟨n, rfl, ?_, hother.marked n howns.marked, ?_, ?_⟩
    · rw [hother.maxPageNum]
      exact howns.lt
    · rw [hnamed.1]
      exact howns.va
    · exact hnamed.2.trans howns.addr

theorem Sound.otherFrames (hsound : m.Sound cur) (hother : OtherFrames m m')
    (hcurrent : m'.tVmspace = m.tVmspace) (hwords : m'.kmallocWords = m.kmallocWords) :
    m'.Sound cur where
  toOwned := hsound.toOwned.otherFrames hother
  current := hcurrent.trans hsound.current
  zeroed n j := by
    rw [hwords]
    exact hsound.zeroed n j

theorem Sound.sameFrames (hsound : m.Sound cur) (hsame : SameFrames m m')
    (hcurrent : m'.tVmspace = m.tVmspace) (hwords : m'.kmallocWords = m.kmallocWords) :
    m'.Sound cur :=
  hsound.otherFrames hsame.otherFrames hcurrent hwords

/-! A frame that was taken and not yet given to a page. -/

structure Ready (m : Machine) (temp index : Nat) : Prop where
  unnamed : m.Unnamed index
  marked : m.gblBmp.bitmapIsset index = true
  lt : index < m.maxPageNum
  ne_zero : index ≠ 0
  pa : (m.coremap index).pa = temp
  address : temp = m.memStart + index * PAGE_SIZE

theorem Sound.took (hsound : m.Sound cur) (hlowest : m.gblBmp.Lowest index)
    (hlt : index < m.gblBmp.nbits) :
    (m.took index).Sound cur ∧ (m.took index).Ready (m.coremap index).pa index := by
  have hunnamed := hsound.unnamed_of_clear hlowest.clear
  have hge := hsound.lowest_ge hlowest
  have hmax : index < m.maxPageNum := hsound.bits ▸ hlt
  refine ⟨hsound.otherFrames ?_ rfl rfl, ?_⟩
  · refine ⟨rfl, rfl, rfl, ?_, fun _ _ => rfl, ?_, ?_⟩
    · intro n hn
      simp [Machine.took, Bitmap.isset_mark, hn]
    · intro n
      by_cases heq : n = index
      · simp [Machine.took, heq]
      · simp [Machine.took, heq]
    · intro n hnamed
      have heq : n ≠ index := by
        rintro rfl
        exact hnamed hunnamed
      simp [Machine.took, heq]
  · refine ⟨hunnamed.congr fun _ _ => rfl, ?_, hmax, by omega, ?_, ?_⟩
    · simp [Machine.took, Bitmap.isset_mark]
    · simp [Machine.took]
    · exact hsound.pa index hge hmax

theorem getSinglepage_sound (hsound : m.Sound cur) :
    Prog.wp getSinglepage
      (fun r m' => if r.1 ≠ 0 then m'.Sound cur ∧ m'.Ready r.1 r.2
        else m'.Sound cur ∧ m'.Full)
      (fun _ _ => False) (fun _ => True) m := by
  apply getSinglepage_wp trivial
  · intro hall
    refine ⟨hsound, ?_⟩
    intro i hi
    exact hall i (by simp only [Bitmap.words]; omega)
  · intro index hlowest hlt
    have hbase := hsound.base
    obtain ⟨hsound', hready⟩ := hsound.took hlowest hlt
    have hne : (m.coremap index).pa ≠ 0 := by
      have haddress := hready.address
      simp only [Machine.took] at haddress
      omega
    rw [if_pos hne]
    exact ⟨hsound', hready⟩

theorem Ready.ptIndex (hready : m.Ready temp index) (hsound : m.Sound cur) :
    (temp + 2 ^ 32 - m.memStart) % 2 ^ 32 / PAGE_SIZE = index := by
  have hroom := hsound.room
  have hlt := hready.lt
  rw [hready.address]
  simp only [PAGE_SIZE] at hroom ⊢
  omega

theorem Ready.otherFrames_inserted (hready : m.Ready temp index) (vaddr : Nat) :
    OtherFrames m (m.inserted index vaddr temp) := by
  refine ⟨rfl, rfl, rfl, fun _ h => h, fun _ _ => rfl, ?_, ?_⟩
  · intro n
    by_cases heq : n = index
    · simp [inserted, heq, hready.pa]
    · simp [inserted, heq]
  · intro n hnamed
    have heq : n ≠ index := by
      rintro rfl
      exact hnamed hready.unnamed
    simp [inserted, heq]

theorem sameFrames_withNpages (m : Machine) (index : Nat) :
    SameFrames m (m.withNpages index) := by
  refine ⟨rfl, rfl, rfl, fun _ _ => rfl, ?_, ?_, ?_⟩
  all_goals
    intro n
    by_cases heq : n = index
    · simp [withNpages, heq]
    · simp [withNpages, heq]

theorem Ready.withNpages (hready : m.Ready temp index) :
    (m.withNpages index).Ready temp index :=
  ⟨hready.unnamed.congr fun _ _ => rfl, hready.marked, hready.lt, hready.ne_zero,
    ((sameFrames_withNpages m index).pa index).trans hready.pa, hready.address⟩

theorem kmallocTable_sound (hsound : m.Sound cur) :
    Prog.wp kmallocTable (fun table m' => m'.Sound cur ∧ ∀ j, table j = 0)
      (fun _ _ => False) (fun _ => True) m := by
  simp only [kmallocTable, ↓Prog.wp_bind]
  refine Prog.wp_mono (getSinglepage_sound hsound) ?_ (fun _ _ h => h) (fun _ h => h)
  intro r m₁ hr
  simp only [↓Prog.wp_assert]
  split
  case isFalse => trivial
  case isTrue hne =>
      rw [if_pos hne] at hr
      obtain ⟨hsound₁, hready⟩ := hr
      have hready₂ := hready.withNpages
      have hsound₂ : (m₁.withNpages r.2).Sound cur :=
        hsound₁.sameFrames (sameFrames_withNpages m₁ r.2) rfl rfl
      have hsound₃ := hsound₂.otherFrames
        (hready₂.otherFrames_inserted (r.1 + KSEG0)) rfl rfl
      show Prog.wp (ptInsert _ _) _ _ _ (m₁.withNpages r.2)
      rw [wp_ptInsert (hready₂.ptIndex hsound₂) hready₂.marked]
      refine ⟨hsound₃.sameFrames ⟨rfl, rfl, rfl, fun _ _ => rfl, fun _ => rfl,
        fun _ => rfl, fun _ => rfl⟩ rfl rfl, ?_⟩
      intro j
      exact hsound₃.zeroed _ j

/-! The steps that give a page its frame and take it away. -/

/-- A fresh table has no resident page. -/
theorem Sound.writeFirstpt (hsound : m.Sound cur) {table : Nat → Int}
    (hzero : ∀ j, table j = 0) (top : Nat) :
    Sound cur { m with
      addrspace := Function.update m.addrspace a
        (Addrspace.writeFirstpt (m.addrspace a) top table) } := by
  refine ⟨⟨hsound.base, hsound.room, hsound.bits, hsound.reserved, hsound.pa, ?_⟩,
    hsound.current, hsound.zeroed⟩
  intro a' va frame hres
  have hentry := hres.entry
  have hold : m.pte a' va = some (frame * 2) := by
    by_cases ha : a' = a
    · subst ha
      by_cases htop : topten va = top
      · simp [pte, Addrspace.writeFirstpt, htop, hzero] at hentry
        have hnonzero := hres.nonzero
        omega
      · simpa [pte, Addrspace.writeFirstpt, htop] using hentry
    · simpa [pte, ha] using hentry
  obtain ⟨n, hn, howns⟩ := hsound.resident a' va frame
    ⟨hres.aligned, hres.nonzero, hold⟩
  exact ⟨n, hn, howns.lt, howns.marked, howns.va, howns.addr⟩

/-- A page-table entry is pointed at a frame, and the frame's coremap entry back
at the page. -/
structure Assigned (m : Machine) (a : AsId) (va index : Nat) (m' : Machine) : Prop where
  memStart : m'.memStart = m.memStart
  maxPageNum : m'.maxPageNum = m.maxPageNum
  nbits : m'.gblBmp.nbits = m.gblBmp.nbits
  marked : ∀ n, m.gblBmp.bitmapIsset n = true → m'.gblBmp.bitmapIsset n = true
  set : m'.gblBmp.bitmapIsset index = true
  pte : ∀ a' va', m'.pte a' va' = (m.setPte a va (index * 2)).pte a' va'
  others : ∀ n, n ≠ index → m'.coremap n = m.coremap n
  pa : (m'.coremap index).pa = (m.coremap index).pa
  va : (m'.coremap index).va = va
  addr : (m'.coremap index).addr = some a

theorem Owned.assigned (howned : m.Owned) (hunnamed : m.Unnamed index)
    (hlt : index < m.maxPageNum) (hassigned : m.Assigned a va index m') : m'.Owned where
  base := by
    rw [hassigned.memStart]
    exact howned.base
  room := by
    rw [hassigned.memStart, hassigned.maxPageNum]
    exact howned.room
  bits := by
    rw [hassigned.nbits, hassigned.maxPageNum]
    exact howned.bits
  reserved i hi := hassigned.marked i (howned.reserved i hi)
  pa i hlow hi := by
    rw [hassigned.memStart, ← howned.pa i hlow (hassigned.maxPageNum ▸ hi)]
    by_cases heq : i = index
    · rw [heq, hassigned.pa]
    · rw [hassigned.others i heq]
  resident a' va' frame hres := by
    have hentry := hres.entry
    rw [hassigned.pte, pte_setPte] at hentry
    split at hentry
    case isTrue hsame =>
        obtain ⟨rfl, rfl⟩ := pageFrame_of_samePte hres.aligned hsame
        obtain ⟨-, -, heq⟩ := Option.map_eq_some_iff.mp hentry
        refine ⟨index, by omega, ?_, hassigned.set, ?_, hassigned.addr⟩
        · rw [hassigned.maxPageNum]
          exact hlt
        · rw [hassigned.va]
    case isFalse =>
        have hold : m.Resident a' va' frame := ⟨hres.aligned, hres.nonzero, hentry⟩
        obtain ⟨n, rfl, howns⟩ := howned.resident a' va' frame hold
        have hne : n ≠ index := by
          rintro rfl
          exact hunnamed a' va' hold
        refine ⟨n, rfl, ?_, hassigned.marked n howns.marked, ?_, ?_⟩
        · rw [hassigned.maxPageNum]
          exact howns.lt
        · rw [hassigned.others n hne]
          exact howns.va
        · rw [hassigned.others n hne]
          exact howns.addr

theorem Ready.map (hready : m.Ready temp index) (hsound : m.Sound (some a)) (fa : Nat) :
    ((m.setPte a fa (index * 2)).inserted index fa temp).Sound (some a) := by
  refine ⟨hsound.toOwned.assigned hready.unnamed hready.lt
    ⟨rfl, rfl, rfl, fun _ h => h, hready.marked, fun _ _ => rfl, ?_, ?_, ?_, ?_⟩,
    hsound.current, hsound.zeroed⟩
  · intro n hne
    exact Function.update_of_ne hne ..
  · simp [inserted, hready.pa]
  · simp [inserted]
  · simpa [inserted, setPte] using hsound.current

theorem findFifoTurn_ge (hi : 3 ≤ i) (hcarried : 3 ≤ carried.2) :
    3 ≤ (m.findFifoTurn carried i).2 := by
  unfold findFifoTurn
  dsimp only
  repeat' split
  all_goals assumption

theorem findFifo_ge (m : Machine) : 3 ≤ m.findFifo := by
  have hfold (l : List Nat) (carried : Nat × Nat) (hl : ∀ i ∈ l, 3 ≤ i)
      (hcarried : 3 ≤ carried.2) : 3 ≤ (l.foldl m.findFifoTurn carried).2 := by
    induction l generalizing carried with
    | nil => exact hcarried
    | cons i l ih =>
        apply ih
        · intro j hj
          exact hl j (List.mem_cons_of_mem _ hj)
        · exact findFifoTurn_ge (hl i (List.mem_cons_self ..)) hcarried
  apply hfold
  · intro i hi
    exact (List.mem_range'_1.mp hi).1
  · decide

/-- The frame that a victim leaves is no page's frame any more. -/
theorem Owned.evict (howned : m.Owned) (slot : Nat) (hge : 3 ≤ frame)
    (haddr : (m.coremap frame).addr = some a)
    (hmem : m'.memStart = m.memStart) (hmax : m'.maxPageNum = m.maxPageNum)
    (hbmp : m'.gblBmp = m.gblBmp.unmark frame)
    (hpte : ∀ a' va, m'.pte a' va =
      (m.setPte a (m.coremap frame).va ((slot : Int) * 2 + 1)).pte a' va)
    (hothers : ∀ n, n ≠ frame → m'.coremap n = m.coremap n)
    (hpa : (m'.coremap frame).pa = (m.coremap frame).pa) : m'.Owned where
  base := by
    rw [hmem]
    exact howned.base
  room := by
    rw [hmem, hmax]
    exact howned.room
  bits := by
    rw [hbmp, hmax]
    exact howned.bits
  reserved i hi := by
    rw [hbmp, Bitmap.isset_unmark, howned.reserved i hi]
    simp
    omega
  pa i hlow hi := by
    rw [hmem, ← howned.pa i hlow (hmax ▸ hi)]
    by_cases heq : i = frame
    · rw [heq, hpa]
    · rw [hothers i heq]
  resident a' va named hres := by
    have hentry := hres.entry
    rw [hpte, pte_setPte] at hentry
    split at hentry
    case isTrue =>
        obtain ⟨-, -, hodd⟩ := Option.map_eq_some_iff.mp hentry
        omega
    case isFalse hother =>
        obtain ⟨n, rfl, howns⟩ := howned.resident a' va named
          ⟨hres.aligned, hres.nonzero, hentry⟩
        have hne : n ≠ frame := by
          rintro rfl
          rw [howns.addr, Option.some.injEq] at haddr
          exact hother (samePte_of_pageFrame haddr howns.va)
        refine ⟨n, rfl, ?_, ?_, ?_, ?_⟩
        · rw [hmax]
          exact howns.lt
        · rw [hbmp, Bitmap.isset_unmark, howns.marked]
          simpa using hne
        · rw [hothers n hne]
          exact howns.va
        · rw [hothers n hne]
          exact howns.addr

theorem Sound.evicted (hsound : m.Sound cur) (hvictim : m.Evictable slot a) :
    (m.evicted slot a).Sound cur := by
  refine ⟨hsound.toOwned.evict slot (findFifo_ge m) hvictim.addr rfl rfl rfl ?_ ?_ ?_,
    hsound.current, hsound.zeroed⟩
  · exact fun _ _ => rfl
  · intro n hne
    exact Function.update_of_ne hne ..
  · simp [Machine.evicted, setPte]

/-! The handler. -/

theorem Sound.withTlb (hsound : m.Sound cur) (tlb : Nat → TlbEntry) (asid : Nat) :
    (m.withTlb tlb asid).Sound cur :=
  hsound.sameFrames ⟨rfl, rfl, rfl, fun _ _ => rfl, fun _ => rfl, fun _ => rfl,
    fun _ => rfl⟩ rfl rfl

theorem makeTable_sound (hsound : m.Sound cur) (a : AsId) (va : Nat) :
    Prog.wp (makeTable a va) (fun _ m' => m'.Sound cur) (fun _ m' => m'.Sound cur)
      (fun _ => True) m := by
  simp only [makeTable, ↓Prog.wp_bind, ↓Prog.wp_get, ↓Prog.wp_when]
  split
  case isFalse => exact hsound
  case isTrue =>
      refine Prog.wp_mono (kmallocTable_sound hsound) ?_ (fun _ _ h => h.elim) (fun _ h => h)
      rintro table m' ⟨hsound', hzero⟩
      exact hsound'.writeFirstpt hzero _

theorem giveFrame_sound (fa : Nat) (hsound₁ : m.Sound (some a))
    (hready₁ : m.Ready temp index) :
    Prog.wp (giveFrame a fa temp index) (fun _ m' => m'.Sound (some a)) (fun _ _ => False)
      (fun _ => True) m := by
  have hready := hready₁.withNpages
  have hsound₂ : (m.withNpages index).Sound (some a) :=
    hsound₁.sameFrames (sameFrames_withNpages m index) rfl rfl
  simp only [giveFrame, setCoremap, ↓Prog.wp_bind, ↓Prog.wp_modify]
  show Prog.wp (writePte _ _ _) _ _ _ (m.withNpages index)
  rw [wp_writePte]
  split
  case isFalse => trivial
  case isTrue =>
      have hindex : (temp + 2 ^ 32 -
          ((m.withNpages index).setPte a fa (index * 2)).memStart) % 2 ^ 32 /
          PAGE_SIZE = index := hready.ptIndex hsound₂
      rw [wp_ptInsert hindex hready.marked]
      exact hready.map hsound₂ fa

theorem frameIndex_wp (m : Machine) (a : AsId) (va : Nat) :
    Prog.wp (frameIndex a va)
      (fun index m' => m' = m ∧ ∃ entry : Int, m.pte a va = some entry ∧
        entry.tdiv 2 = index)
      (fun _ _ => False) (fun _ => True) m := by
  simp only [frameIndex, ↓Prog.wp_bind, wp_readPte]
  split
  case h_1 => trivial
  case h_2 entry hentry =>
      simp only [↓Prog.wp_get, ↓Prog.wp_assert, ↓Prog.wp_pure]
      split
      case isFalse => trivial
      case isTrue hrange => exact ⟨trivial, entry, hentry, (Int.toNat_of_nonneg hrange.1).symm⟩

theorem Sound.locked (hsound : m.Sound cur) (index : Nat) :
    Sound cur { m with
      coremap := Function.update m.coremap index
        { m.coremap index with locked := true } } := by
  refine hsound.sameFrames ⟨rfl, rfl, rfl, fun _ _ => rfl, ?_, ?_, ?_⟩ rfl rfl
  all_goals
    intro n
    by_cases heq : n = index
    · simp [heq]
    · simp [heq]

theorem loadPage_sound (hsound : m.Sound cur) (as : Addrspace) (a : AsId) (va : Nat) :
    Prog.wp (loadPage as a va) (fun _ m' => m'.Sound cur) (fun _ m' => m'.Sound cur)
      (fun _ => True) m := by
  unfold loadPage
  split
  case h_1 => exact hsound
  case h_2 offset filesize _ =>
      simp only [↓Prog.wp_bind]
      refine Prog.wp_mono (frameIndex_wp m a va) ?_ (fun _ _ h => h.elim) (fun _ h => h)
      rintro index m' ⟨rfl, -⟩
      simp only [↓Prog.wp_get, setCoremap, ↓Prog.wp_modify]
      refine Prog.wp_mono (pageRead_wp _ _ _ _ _ _) ?_ ?_ (fun _ _ => trivial)
      · rintro _ _ rfl
        exact (hsound.locked index).sameFrames ⟨rfl, rfl, rfl, fun _ _ => rfl,
          fun _ => rfl, fun _ => rfl, fun _ => rfl⟩ rfl rfl
      · rintro _ _ rfl
        exact (hsound.locked index).sameFrames ⟨rfl, rfl, rfl, fun _ _ => rfl,
          fun _ => rfl, fun _ => rfl, fun _ => rfl⟩ rfl rfl

theorem refill_sound (hsound : m.Sound cur) (a : AsId) (va : Nat) :
    Prog.wp (refill a va) (fun _ m' => m'.Sound cur) (fun _ m' => m'.Sound cur)
      (fun _ => True) m := by
  simp only [refill, ↓Prog.wp_bind, ↓Prog.wp_get]
  refine Prog.wp_mono (loadPage_sound hsound _ a va) ?_ (fun _ _ h => h) (fun _ h => h)
  intro _ m₁ hsound₁
  refine Prog.wp_mono (frameIndex_wp m₁ a va) ?_ (fun _ _ h => h.elim) (fun _ h => h)
  rintro index m' ⟨rfl, -⟩
  refine Prog.wp_mono (tlbInsert_wp m' _ m'.asid) ?_ (fun _ _ h => h.elim)
    (fun _ h => h)
  rintro _ m₂ ⟨⟨tlb, rfl⟩, -⟩
  exact hsound₁.withTlb tlb _

theorem sound_sideKeeps (cur : Option AsId) : SideKeeps (Sound cur) where
  growStack a va m hsound := by
    apply growStack_wp
    intro base
    exact hsound.sameFrames ⟨rfl, rfl, rfl, pte_withStackvbase m a base, fun _ => rfl,
      fun _ => rfl, fun _ => rfl⟩ rfl rfl
  makeTable a va m hsound := makeTable_sound hsound a va
  refill a va m hsound _ := refill_sound hsound a _

theorem sound_missKeeps (cur : Option AsId) :
    MissKeeps cur (Sound cur) (Sound cur)
      (fun temp index m => m.Sound cur ∧ m.Ready temp index) where
  side := sound_sideKeeps cur
  current _ hsound := hsound.current
  weaken _ hsound := hsound
  full _ hsound _ := hsound
  getSinglepage m hsound := getSinglepage_sound hsound
  giveFrame a fa temp index m hcur hready := by
    obtain rfl := hcur
    exact giveFrame_sound fa hready.1 hready.2
  evicted m slot a hsound _ hvictim := hsound.evicted hvictim
  lhClear m free hsound := hsound.sameFrames ⟨rfl, rfl, rfl, fun _ _ => rfl, fun _ => rfl,
    fun _ => rfl, fun _ => rfl⟩ rfl rfl
  copyOut slot pa m hsound := hsound.sameFrames ⟨rfl, rfl, rfl, fun _ _ => rfl, fun _ => rfl,
    fun _ => rfl, fun _ => rfl⟩ rfl rfl
  tlbDrop va m hsound := by
    refine Prog.wp_mono (tlbDrop_returns m va m.asid) ?_ (fun _ _ h => h)
      (fun _ _ => trivial)
    rintro _ _ ⟨tlb, asid, rfl⟩
    exact hsound.withTlb tlb asid

theorem vmFault_sound (depth : Nat) (faulttype : FaultType) (hsound : m.Sound cur)
    (hmiss : m.translate address = none) :
    Prog.wp (vmFault depth faulttype address) (fun _ m' => m'.Sound cur)
      (fun _ m' => m'.Sound cur) (fun _ => True) m :=
  (sound_missKeeps cur).nested depth faulttype hsound hmiss

/-- How the kernel reaches a page outside the handler. -/
abbrev kernelTouch (depth : Nat) : Bool → Nat → Op Nat :=
  access (vmFault depth .VM_FAULT_READ) (depth + 1)

theorem kernelTouch_sound (cur : Option AsId) (depth : Nat) :
    Touches (Sound cur) (kernelTouch depth) :=
  Touches.access (fun _ _ hsound hmiss => vmFault_sound depth .VM_FAULT_READ hsound hmiss) _

theorem evict_sound (hsound : m.Sound cur) (depth va : Nat) :
    Prog.wp (evict (kernelTouch depth) va) (fun _ m' => m'.Sound cur) (fun _ _ => False)
      (fun _ => True) m := by
  apply evict_wp va (fun _ _ => trivial)
  · intro _
    exact hsound
  · intro slot a hvictim
    exact (sound_missKeeps cur).evictRest (kernelTouch_sound cur depth)
      (hsound.evicted hvictim) va slot _

/-- `swap_in` does not write the back pointer: the frame it takes must have kept
the right one. -/
theorem Sound.swappedIn (hsound : m.Sound cur) (hlowest : m.gblBmp.Lowest index)
    (hlt : index < m.gblBmp.nbits) (hholder : (m.swapHolder slot).addr = some a)
    (haddr : (m.coremap index).addr = (m.swapHolder slot).addr) :
    (m.swappedIn slot index a).Sound cur := by
  have hmax : index < m.maxPageNum := hsound.bits ▸ hlt
  refine ⟨hsound.toOwned.assigned (hsound.unnamed_of_clear hlowest.clear) hmax
    ⟨rfl, rfl, rfl, ?_, ?_, fun _ _ => rfl, ?_, ?_, ?_, ?_⟩, hsound.current, hsound.zeroed⟩
  · intro n hn
    simp [Machine.swappedIn, Bitmap.isset_mark, hn]
  · simp [Machine.swappedIn, Bitmap.isset_mark]
  · intro n hne
    exact Function.update_of_ne hne ..
  · simp [Machine.swappedIn, setPte]
  · simp [Machine.swappedIn]
  · simpa [Machine.swappedIn, setPte] using haddr.trans hholder

theorem swapIn_sound (hsound : m.Sound cur)
    (haddr : ∀ index, m.gblBmp.Lowest index →
      (m.coremap index).addr = (m.swapHolder slot).addr) (depth va : Nat) :
    Prog.wp (swapIn (kernelTouch depth) va slot) (fun _ m' => m'.Sound cur) (fun _ _ => False)
      (fun _ => True) m := by
  apply swapIn_wp va slot (fun _ _ => trivial) hsound
  intro index a hlowest hlt hholder _
  apply (kernelTouch_sound cur depth).lhdIo (sound_missKeeps cur).lhClear
  · intro pa m' hsound'
    exact hsound'.sameFrames ⟨rfl, rfl, rfl, fun _ _ => rfl, fun _ => rfl, fun _ => rfl,
      fun _ => rfl⟩ rfl rfl
  · exact hsound.swappedIn hlowest hlt hholder (haddr index hlowest)

end OS161.VM.Machine
