import Mathlib.Data.List.Basic
import OS161.VM.Machine

namespace OS161.VM.Machine

open OS161.Data
open OS161.Kern
open OS161.Lib

/-! What the steps of the pager do to a page-table entry. -/

variable {m m' : Machine} {a : AsId} {va : Nat}

/-- The machine after an entry of an existing table was written. -/
def setPte (m : Machine) (a : AsId) (va : Nat) (entry : Int) : Machine :=
  { m with
    addrspace := Function.update m.addrspace a
      { m.addrspace a with
        firstpt := Function.update (m.addrspace a).firstpt (topten va)
          (((m.addrspace a).firstpt (topten va)).map fun table =>
            Function.update table (btmten va) entry) } }

/-- Two addresses lie in one page of one address space. -/
def SamePte (a : AsId) (va : Nat) (a' : AsId) (va' : Nat) : Prop :=
  a' = a ∧ topten va' = topten va ∧ btmten va' = btmten va

instance (a : AsId) (va : Nat) (a' : AsId) (va' : Nat) : Decidable (SamePte a va a' va') :=
  inferInstanceAs (Decidable (_ ∧ _ ∧ _))

theorem pte_setPte (m : Machine) (a : AsId) (va : Nat) (entry : Int) (a' : AsId)
    (va' : Nat) :
    (m.setPte a va entry).pte a' va' =
      if SamePte a va a' va' then (m.pte a va).map fun _ => entry
      else m.pte a' va' := by
  by_cases ha : a' = a
  · subst ha
    by_cases htop : topten va' = topten va
    · by_cases hbtm : btmten va' = btmten va
      · simp [SamePte, pte, setPte, htop, hbtm, Function.comp_def]
      · simp [SamePte, pte, setPte, htop, hbtm, Function.comp_def]
    · simp [SamePte, pte, setPte, htop]
  · simp [SamePte, pte, setPte, ha]

theorem pageFrame_idem (va : Nat) : pageFrame (pageFrame va) = pageFrame va := by
  simp only [pageFrame, PAGE_SIZE]
  omega

section Rules

variable {post : Unit → Machine → Prop} {fails : Errno → Machine → Prop}
variable {bad : Fault → Prop}

theorem wp_writePte (entry : Int) :
    Prog.wp (writePte a va entry) post fails bad m ↔
      if (m.pte a va).isSome then post () (m.setPte a va entry)
      else bad .nullTable := by
  simp only [writePte, ↓Prog.wp_bind, ↓Prog.wp_get, pte, Option.isSome_map]
  cases htable : (m.addrspace a).firstpt (topten va) with
  | none => simp
  | some table => simp [setAddrspace, Addrspace.writeFirstpt, setPte, htable]

theorem wp_readPte {post : Int → Machine → Prop} :
    Prog.wp (readPte a va) post fails bad m ↔
      match m.pte a va with
      | none => bad .nullTable
      | some entry => post entry m := by
  simp only [readPte, ↓Prog.wp_bind, ↓Prog.wp_get]
  cases m.pte a va with
  | none => rfl
  | some entry => rfl

/-- The machine after the stack's base was moved. -/
def withStackvbase (m : Machine) (a : AsId) (base : Nat) : Machine :=
  { m with
    addrspace := Function.update m.addrspace a
      { m.addrspace a with asStackvbase := base } }

theorem pte_withStackvbase (m : Machine) (a : AsId) (base : Nat) (a' : AsId) (va : Nat) :
    (m.withStackvbase a base).pte a' va = m.pte a' va := by
  by_cases ha : a' = a
  · simp [pte, withStackvbase, ha]
  · simp [pte, withStackvbase, ha]

theorem growStack_wp (hpost : ∀ base, post () (m.withStackvbase a base)) :
    Prog.wp (growStack a va) post fails bad m := by
  simp only [growStack, setAddrspace, ↓Prog.wp_bind, ↓Prog.wp_get, ↓Prog.wp_when,
    ↓Prog.wp_modify]
  split
  case isTrue => exact hpost va
  case isFalse =>
      have hsame : m.withStackvbase a (m.addrspace a).asStackvbase = m := by
        simp [withStackvbase]
      have h := hpost (m.addrspace a).asStackvbase
      rwa [hsame] at h

theorem checkSetup_wp (hpost : post () m) (hbad : bad .vmFaultSetup) :
    Prog.wp (checkSetup as) post fails bad m := by
  simp only [checkSetup, ↓Prog.wp_bind, ↓Prog.wp_assert]
  repeat
    split
    case isFalse => exact hbad
  exact hpost

theorem makeTable_of_entry (hentry : (m.pte a va).isSome) :
    Prog.wp (makeTable a va) post fails bad m ↔ post () m := by
  simp only [makeTable, ↓Prog.wp_bind, ↓Prog.wp_get, ↓Prog.wp_when]
  cases hfirst : (m.addrspace a).firstpt (topten va) with
  | none => simp [pte, hfirst] at hentry
  | some table => simp

end Rules

/-! The translation buffer. -/

@[simp] theorem pid_invalid (i : Nat) : (TlbEntry.invalid i).pid = 0 := by
  simp only [TlbEntry.pid, TlbEntry.invalid]
  omega

@[simp] theorem valid_invalid (i : Nat) : (TlbEntry.invalid i).valid = false := by
  simp [TlbEntry.valid, TlbEntry.invalid]

/-- The machine after changes to the translation buffer alone. -/
def withTlb (m : Machine) (tlb : Nat → TlbEntry) (asid : Nat) : Machine :=
  { m with tlb := tlb, asid := asid }

theorem tlbFlush_returns (m : Machine) :
    Prog.Returns tlbFlush (fun _ m' => ∃ tlb, m' = m.withTlb tlb 0 ∧
      ∀ i < NUM_TLB, tlb i = .invalid i) m := by
  unfold tlbFlush
  refine Prog.wp_mono (Prog.wp_forFrom (fun i _ m' => ∃ tlb asid,
    m' = m.withTlb tlb asid ∧ (0 < i → asid = 0) ∧ ∀ j < i, tlb j = .invalid j) ?_ ?_)
    ?_ (fun _ _ h => h) (fun _ h => h)
  · rintro i _ m' - - ⟨tlb, asid, rfl, -, hall⟩
    refine ⟨Function.update tlb i (.invalid i), 0, ?_, fun _ => rfl, ?_⟩
    · simp [withTlb]
    · intro j hj
      by_cases heq : j = i
      · simp [heq]
      · rw [Function.update_of_ne heq]
        exact hall j (by omega)
  · exact ⟨m.tlb, m.asid, rfl, by omega, by omega⟩
  · rintro _ m' ⟨tlb, asid, rfl, hasid, hall⟩
    obtain rfl := hasid (by decide)
    exact ⟨tlb, rfl, fun i hi => hall i (by omega)⟩

/-- A new entry goes into one slot; the others stay or become invalid. -/
structure Entered (m : Machine) (e : TlbEntry) (m' : Machine) : Prop where
  same : ∃ tlb, m' = m.withTlb tlb e.pid
  slots : ∀ i < NUM_TLB, m'.tlb i = e ∨ m'.tlb i = m.tlb i ∨ m'.tlb i = .invalid i

/-- The slot that the search of `vm_fault` ends at: the first invalid one, or the
first of all after the rest was flushed. -/
inductive Placed (m : Machine) (e : TlbEntry) : Machine → Prop where
  | first (hi : i < 63) (hfree : (m.tlb i).valid = false) :
      Placed m e (m.withTlb (Function.update m.tlb i e) e.pid)
  | flushed {tlb : Nat → TlbEntry} (hall : ∀ i < NUM_TLB, tlb i = .invalid i) :
      Placed m e (m.withTlb (Function.update tlb 0 e) e.pid)

theorem Placed.entered (hplaced : m.Placed e m') : m.Entered e m' := by
  cases hplaced with
  | @first i hi hfree =>
      refine ⟨⟨_, rfl⟩, ?_⟩
      intro j _
      by_cases heq : j = i
      · left
        simp [withTlb, heq]
      · right
        left
        exact Function.update_of_ne heq ..
  | @flushed tlb hall =>
      refine ⟨⟨_, rfl⟩, ?_⟩
      intro j hj
      by_cases hzero : j = 0
      · left
        simp [withTlb, hzero]
      · right
        right
        exact (Function.update_of_ne hzero ..).trans (hall j hj)

theorem tlbInsert_placed (m : Machine) (e : TlbEntry) (asid : Nat)
    (hi : i + turns = NUM_TLB) (hbelow : ∀ j < i, (m.tlb j).valid = true) :
    Prog.wp (tlbInsert e turns i) (fun _ m' => m.Placed e m') (fun _ _ => False)
      (fun reason => reason = .vmFaultNoReturn ∧ (m.tlb 63).valid = true)
      (m.withTlb m.tlb asid) := by
  induction turns generalizing i asid with
  | zero =>
      refine ⟨rfl, hbelow 63 ?_⟩
      rw [← Nat.add_zero i, hi]
      decide
  | succ turns ih =>
      simp only [tlbInsert, tlbRead, ↓Prog.wp_bind, ↓Prog.wp_get, ↓Prog.wp_modify,
        ↓Prog.wp_pure, ↓Prog.wp_ite]
      split
      case isTrue hvalid =>
          apply ih _ (by omega)
          intro j hj
          cases Nat.lt_succ_iff_lt_or_eq.mp hj with
          | inl hlt => exact hbelow j hlt
          | inr heq =>
              rw [heq]
              exact hvalid
      case isFalse hfree =>
      split
      case isTrue =>
          refine Prog.wp_mono (tlbFlush_returns _) ?_ (fun _ _ h => h) (fun _ h => h.elim)
          intro _ m' hflushed
          obtain ⟨tlb, rfl, hall⟩ := hflushed
          exact Placed.flushed hall
      case isFalse hlast =>
          have hlt : i < 63 := by
            simp only [NUM_TLB] at hi
            omega
          exact Placed.first hlt (Bool.eq_false_iff.mpr hfree)

theorem tlbInsert_wp (m : Machine) (e : TlbEntry) (asid : Nat) :
    Prog.wp (tlbInsert e NUM_TLB 0) (fun _ m' => m.Entered e m') (fun _ _ => False)
      (fun _ => True) (m.withTlb m.tlb asid) :=
  Prog.wp_mono (tlbInsert_placed m e asid rfl (fun _ h => absurd h (Nat.not_lt_zero _)))
    (fun _ _ h => h.entered) (fun _ _ h => h) (fun _ _ => trivial)

theorem tlbDrop_returns (m : Machine) (va asid : Nat) :
    Prog.Returns (tlbDrop va turns i) (fun _ m' => ∃ tlb asid', m' = m.withTlb tlb asid')
      (m.withTlb m.tlb asid) := by
  induction turns generalizing i asid with
  | zero => exact ⟨m.tlb, asid, rfl⟩
  | succ turns ih =>
      simp only [tlbDrop, tlbRead, ↓Prog.wp_bind, ↓Prog.wp_get, ↓Prog.wp_modify,
        ↓Prog.wp_pure, ↓Prog.wp_ite]
      split
      case isTrue => exact ⟨Function.update m.tlb i _, _, rfl⟩
      case isFalse => exact ih _

/-! Taking frames. -/

/-- The machine after `get_singlepage` took a frame. -/
def took (m : Machine) (index : Nat) : Machine :=
  { m with
    gblBmp := m.gblBmp.mark index
    coremap := Function.update m.coremap index
      { m.coremap index with addr := m.tVmspace, time := m.ref }
    ref := (m.ref + 1) % 2 ^ 32 }

theorem getSinglepage_wp {post : Nat × Nat → Machine → Prop}
    {fails : Errno → Machine → Prop} {bad : Fault → Prop} (hrange : bad .bitmapAllocRange)
    (hfull : (∀ j < m.gblBmp.words * 8, m.gblBmp.bitmapIsset j = true) → post (0, 0) m)
    (htook : ∀ index, m.gblBmp.Lowest index → index < m.gblBmp.nbits →
      post ((m.coremap index).pa, index) (m.took index)) :
    Prog.wp getSinglepage post fails bad m := by
  simp only [getSinglepage, onGblBmp, ↓Prog.wp_bind, ↓Prog.wp_attempt, ↓Prog.wp_zoom]
  refine Prog.wp_mono (Bitmap.bitmapAlloc_wp m.gblBmp) ?_ ?_ ?_
  · intro index gblBmp halloc
    obtain ⟨hlowest, hlt, rfl⟩ := halloc
    have hpa : ((m.took index).coremap index).pa = (m.coremap index).pa := by
      simp [took]
    have hpost := htook index hlowest hlt
    rw [← hpa] at hpost
    exact hpost
  · intro code gblBmp hall
    obtain ⟨-, rfl, hall⟩ := hall
    exact hfull hall
  · intro reason hreason
    rw [hreason.1]
    exact hrange

/-- The machine after `pt_insert` on a frame that is marked already. -/
def inserted (m : Machine) (index vaddr paddr : Nat) : Machine :=
  { m with
    coremap := Function.update m.coremap index
      { m.coremap index with
        va := vaddr
        pa := paddr
        valid := true
        time := m.ref
        addr := m.tVmspace }
    ref := (m.ref + 1) % 2 ^ 32 }

theorem wp_ptInsert {post : Unit → Machine → Prop} {fails : Errno → Machine → Prop}
    {bad : Fault → Prop}
    (hindex : (paddr + 2 ^ 32 - m.memStart) % 2 ^ 32 / PAGE_SIZE = index)
    (hmarked : m.gblBmp.bitmapIsset index = true) (vaddr : Nat) :
    Prog.wp (ptInsert vaddr paddr) post fails bad m ↔
      post () (m.inserted index vaddr paddr) := by
  simp only [ptInsert, setCoremap, ↓Prog.wp_bind, ↓Prog.wp_get, ↓Prog.wp_modify,
    ↓Prog.wp_when, hindex, hmarked, Bool.true_eq_false, if_false]
  rfl

/-- The machine after `npages` of a frame was set. -/
def withNpages (m : Machine) (index : Nat) : Machine :=
  { m with
    coremap := Function.update m.coremap index { m.coremap index with npages := 1 } }

/-! The words of an entry. -/

theorem page_or_eq_add (hpage : page % PAGE_SIZE = 0) (hlow : low < PAGE_SIZE) :
    page ||| low = page + low := by
  obtain ⟨k, rfl⟩ := Nat.dvd_of_mod_eq_zero hpage
  exact (Nat.two_pow_add_eq_or_of_lt (i := 12) hlow k).symm

theorem tlbFlags_cases (as : Addrspace) (va : Nat) :
    tlbFlags as va = 0x200 ∨ tlbFlags as va = 0x600 := by
  unfold tlbFlags
  cases region as va with
  | text => exact Or.inl rfl
  | data => exact Or.inr (by decide)
  | other => exact Or.inr (by decide)

theorem pid_or_pid {pid : Nat} (va : Nat) (hpid : pid < 64) (elo : Nat) :
    (⟨pageFrame va ||| pid * 64 % 2 ^ 32, elo⟩ : TlbEntry).pid = pid ∧
    (⟨pageFrame va ||| pid * 64 % 2 ^ 32, elo⟩ : TlbEntry).vpage = pageFrame va := by
  have hpage : pageFrame va % PAGE_SIZE = 0 := by
    simp [pageFrame]
  have hlow : pid * 64 < PAGE_SIZE := by
    simp only [PAGE_SIZE]
    omega
  have hehi : pageFrame va ||| pid * 64 % 2 ^ 32 = pageFrame va + pid * 64 := by
    rw [Nat.mod_eq_of_lt (by omega)]
    exact page_or_eq_add hpage hlow
  simp only [PAGE_SIZE] at hpage hlow
  simp only [TlbEntry.pid, TlbEntry.vpage, hehi]
  constructor
  · omega
  · simp only [pageFrame, PAGE_SIZE] at hpage ⊢
    omega

theorem valid_or_flags (ehi pa : Nat) (as : Addrspace) (va : Nat) :
    (⟨ehi, pa ||| tlbFlags as va⟩ : TlbEntry).valid = true := by
  have hbit : (pa ||| tlbFlags as va).testBit 9 = true := by
    rw [Nat.testBit_or]
    cases tlbFlags_cases as va with
    | inl hflags => simp [hflags, show Nat.testBit 0x200 9 = true by decide]
    | inr hflags => simp [hflags, show Nat.testBit 0x600 9 = true by decide]
  rw [Nat.testBit_eq_decide_div_mod_eq] at hbit
  exact hbit

/-! Reading a page from the executable. -/

/-- The machine after changes to the memory alone. -/
def withRam (m : Machine) (ram : Nat → Byte) : Machine := { m with ram := ram }

/-- What `page_read` leaves at place `o` of a page of `memsize` bytes, where it
writes that place. -/
def pageImage (v : Vnode) (offset memsize filesize o : Nat) : Option Byte :=
  let filesize := min filesize memsize
  let bytes := (v offset filesize).1
  let result := (v offset filesize).2
  if o < filesize then bytes[o]?
  else if result = none ∧ filesize ≤ bytes.length ∧ o < memsize then some 0
  else none

/-- Memory with the bytes of `image` laid over it from `pa` on. -/
def overlay (ram : Nat → Byte) (pa : Nat) (image : Nat → Option Byte) (x : Nat) : Byte :=
  if pa ≤ x then (image (x - pa)).getD (ram x) else ram x

theorem writeBytes_eq (m : Machine) (pa : Nat) (bytes : List Byte) :
    m.writeBytes pa bytes = m.withRam (overlay m.ram pa fun o => bytes[o]?) := by
  simp only [writeBytes, withRam, List.getD_eq_getElem?_getD]
  rfl

/-- The bytes read from the file, without the zeros after them. -/
theorem overlay_take {bytes : List Byte} (hshort : ∀ o, filesize ≤ o → image o = none)
    (himage : ∀ o < filesize, image o = bytes[o]?) (m : Machine) (pa : Nat) :
    m.writeBytes pa (bytes.take filesize) = m.withRam (overlay m.ram pa image) := by
  have hpointwise (o : Nat) : (bytes.take filesize)[o]? = image o := by
    rw [List.getElem?_take]
    by_cases ho : o < filesize
    · rw [if_pos ho, himage o ho]
    · rw [if_neg ho, hshort o (by omega)]
  rw [writeBytes_eq, funext hpointwise]

theorem pageRead_wp (m : Machine) (v : Vnode) (offset pa memsize filesize : Nat) :
    Prog.wp (pageRead v offset pa memsize filesize)
      (fun _ m' => m' = m.withRam (overlay m.ram pa (pageImage v offset memsize filesize)))
      (fun _ m' => m' = m.withRam (overlay m.ram pa (pageImage v offset memsize filesize)))
      (fun _ => False) m := by
  have himage (o : Nat) (ho : o < min filesize memsize) :
      pageImage v offset memsize filesize o =
        (v offset (min filesize memsize)).1[o]? := by
    simp only [pageImage, if_pos ho]
  simp only [pageRead, ↓Prog.wp_bind, ↓Prog.wp_modify]
  split
  case h_1 code hresult =>
      apply overlay_take _ himage
      intro o ho
      simp only [pageImage, hresult]
      grind
  case h_2 hresult =>
      simp only [↓Prog.wp_ite, ↓Prog.wp_fail, ↓Prog.wp_modify]
      split
      case isTrue hshort =>
          apply overlay_take _ himage
          intro o ho
          simp only [pageImage]
          grind
      case isFalse hfull =>
          rw [writeBytes_eq, writeBytes_eq]
          simp only [withRam]
          congr 1
          funext x
          simp only [overlay, pageImage, hresult, List.getElem?_take, List.getElem?_replicate]
          grind

end OS161.VM.Machine
