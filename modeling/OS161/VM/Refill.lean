import OS161.VM.Ownership

namespace OS161.VM.Machine

open OS161.Data
open OS161.Kern
open OS161.Lib

/-! What a program sees of its own pages across faults that only refill the
TLB. -/

variable {m m' : Machine} {a : AsId} {va fa frame : Nat}

/-- The page-table entry of `va` names a frame. -/
structure InFrame (m : Machine) (a : AsId) (va frame : Nat) : Prop where
  ne_zero : frame ≠ 0
  entry : m.pte a va = some ((frame : Int) * 2)

theorem pte_pageFrame (m : Machine) (a : AsId) (va : Nat) :
    m.pte a (pageFrame va) = m.pte a va := by
  have htop : topten (pageFrame va) = topten va := by
    simp only [topten, pageFrame, PAGE_SIZE]
    omega
  have hbtm : btmten (pageFrame va) = btmten va := by
    simp only [btmten, pageFrame, PAGE_SIZE]
    omega
  rw [pte, pte, htop, hbtm]

/-- What a fault on a resident page reads from the executable, where it reads
the page at all. -/
def fileImage (m : Machine) (a : AsId) (fa : Nat) : Nat → Option Byte :=
  match fileRange (m.addrspace a) fa with
  | none => fun _ => none
  | some (offset, filesize) =>
      pageImage (m.addrspace a).asVnode offset PAGE_SIZE filesize

/-- The machine after the page was read into its frame. -/
def loaded (m : Machine) (a : AsId) (fa frame : Nat) : Machine :=
  match fileRange (m.addrspace a) fa with
  | none => m
  | some _ => { m with
      ram := overlay m.ram (m.coremap frame).pa (m.fileImage a fa)
      coremap := Function.update m.coremap frame
        { m.coremap frame with locked := true } }

theorem ram_loaded (m : Machine) (a : AsId) (fa frame : Nat) :
    (m.loaded a fa frame).ram = overlay m.ram (m.coremap frame).pa (m.fileImage a fa) := by
  cases hrange : fileRange (m.addrspace a) fa with
  | none =>
      funext x
      simp [loaded, fileImage, hrange, overlay]
  | some range => simp [loaded, hrange]

theorem pa_loaded (m : Machine) (a : AsId) (fa frame n : Nat) :
    ((m.loaded a fa frame).coremap n).pa = (m.coremap n).pa := by
  unfold loaded
  split
  · rfl
  · by_cases heq : n = frame
    · simp [heq]
    · simp [heq]

/-- The rest of the machine. -/
structure SameRest (m m' : Machine) : Prop where
  current : m'.tVmspace = m.tVmspace
  pid : m'.pid = m.pid
  pte : ∀ a va, m'.pte a va = m.pte a va
  pa : ∀ n, (m'.coremap n).pa = (m.coremap n).pa

theorem SameRest.refl (m : Machine) : SameRest m m :=
  ⟨rfl, rfl, fun _ _ => rfl, fun _ => rfl⟩

theorem SameRest.trans {m₁ m₂ m₃ : Machine} (hfirst : SameRest m₁ m₂)
    (hsecond : SameRest m₂ m₃) : SameRest m₁ m₃ :=
  ⟨hsecond.current.trans hfirst.current, hsecond.pid.trans hfirst.pid,
    fun a va => (hsecond.pte a va).trans (hfirst.pte a va),
    fun n => (hsecond.pa n).trans (hfirst.pa n)⟩

theorem sameRest_loaded (m : Machine) (a : AsId) (fa frame : Nat) :
    SameRest m (m.loaded a fa frame) := by
  refine ⟨?_, ?_, ?_, pa_loaded m a fa frame⟩
  all_goals
    unfold loaded
    split
    · intros
      rfl
    · intros
      rfl

theorem mmu_loaded (m : Machine) (a : AsId) (fa frame : Nat) :
    (m.loaded a fa frame).tlb = m.tlb ∧ (m.loaded a fa frame).asid = m.asid := by
  unfold loaded
  split
  · exact ⟨rfl, rfl⟩
  · exact ⟨rfl, rfl⟩

theorem InFrame.frameIndex (hframe : m.InFrame a va frame) :
    Prog.wp (frameIndex a va) (fun index m' => m' = m ∧ index = frame)
      (fun _ _ => False) (fun _ => True) m := by
  refine Prog.wp_mono (frameIndex_wp m a va) ?_ (fun _ _ h => h) (fun _ h => h)
  rintro index m' ⟨rfl, entry, hentry, hindex⟩
  refine ⟨rfl, ?_⟩
  rw [hframe.entry, Option.some.injEq] at hentry
  rw [← hentry, Int.mul_tdiv_cancel _ (by decide)] at hindex
  omega

theorem InFrame.mapPage (hframe : m.InFrame a fa frame) {touch : Bool → Nat → Op Nat}
    {post : Unit → Machine → Prop} {fails : Errno → Machine → Prop} {bad : Fault → Prop} :
    Prog.wp (mapPage touch a fa) post fails bad m ↔ post () m := by
  have heven : ((frame : Int) * 2).tmod 2 ≠ 1 := by
    rw [Int.tmod_eq_emod_of_nonneg (by omega)]
    omega
  have hindex : ((frame : Int) * 2).tdiv 2 ≠ 0 := by
    have hne := hframe.ne_zero
    rw [Int.mul_tdiv_cancel _ (by decide)]
    omega
  simp only [Machine.mapPage, ↓Prog.wp_bind, wp_readPte, hframe.entry, ↓Prog.wp_ite,
    heven, if_false, ↓Prog.wp_when, hindex]

theorem InFrame.loadPage (hframe : m.InFrame a fa frame) :
    Prog.wp (loadPage (m.addrspace a) a fa) (fun _ m' => m' = m.loaded a fa frame)
      (fun _ m' => m' = m.loaded a fa frame) (fun _ => True) m := by
  unfold Machine.loadPage
  cases hrange : fileRange (m.addrspace a) fa with
  | none => simp [loaded, hrange]
  | some range =>
      simp only [↓Prog.wp_bind, loaded, fileImage, hrange]
      refine Prog.wp_mono hframe.frameIndex ?_ (fun _ _ h => h.elim) (fun _ h => h)
      rintro index m' ⟨rfl, rfl⟩
      simp only [↓Prog.wp_get, setCoremap, ↓Prog.wp_modify]
      exact Prog.wp_mono (pageRead_wp _ _ _ _ _ _) (fun _ _ h => h) (fun _ _ h => h)
        (fun _ h => h.elim)

/-- The entry that `vm_fault` enters for a page. -/
def refillEntry (m : Machine) (a : AsId) (fa frame : Nat) : TlbEntry :=
  ⟨fa ||| m.pid * 64 % 2 ^ 32, (m.coremap frame).pa ||| tlbFlags (m.addrspace a) fa⟩

theorem InFrame.refill (hframe : m.InFrame a fa frame) :
    Prog.wp (refill a fa)
      (fun _ m' => (m.loaded a fa frame).Entered (m.refillEntry a fa frame) m')
      (fun _ m' => m' = m.loaded a fa frame) (fun _ => True) m := by
  simp only [Machine.refill, ↓Prog.wp_bind, ↓Prog.wp_get]
  refine Prog.wp_mono hframe.loadPage ?_ (fun _ _ h => h) (fun _ h => h)
  rintro _ m₁ rfl
  have hrest := sameRest_loaded m a fa frame
  have hframe₁ : (m.loaded a fa frame).InFrame a fa frame :=
    ⟨hframe.ne_zero, (hrest.pte a fa).trans hframe.entry⟩
  refine Prog.wp_mono hframe₁.frameIndex ?_ (fun _ _ h => h.elim) (fun _ h => h)
  rintro index m' ⟨rfl, rfl⟩
  rw [hrest.pid, hrest.pa]
  exact Prog.wp_mono (tlbInsert_wp _ _ (m.loaded a fa index).asid) (fun _ _ h => h)
    (fun _ _ h => h.elim) (fun _ h => h)

/-- A fault on a resident page reads the page where its region says so, and
enters it into the TLB. -/
theorem vmFault_inFrame (hcurrent : m.tVmspace = some a)
    (hframe : m.InFrame a (pageFrame va) frame) (depth : Nat) (faulttype : FaultType) :
    Prog.wp (vmFault depth faulttype va)
      (fun _ m' => ∃ base, ((m.withStackvbase a base).loaded a (pageFrame va) frame).Entered
        (m.refillEntry a (pageFrame va) frame) m')
      (fun _ m' => m' = m ∨
        ∃ base, m' = (m.withStackvbase a base).loaded a (pageFrame va) frame)
      (fun _ => True) m := by
  cases depth with
  | zero => trivial
  | succ depth =>
  simp only [vmFault, vmFaultWith, ↓Prog.wp_ite, ↓Prog.wp_fail, ↓Prog.wp_panic,
    ↓Prog.wp_bind, ↓Prog.wp_get, hcurrent]
  split
  case isTrue => exact Or.inl trivial
  case isFalse =>
  split
  case isTrue => trivial
  case isFalse =>
  split
  case isTrue => exact Or.inl trivial
  case isFalse =>
  apply growStack_wp
  intro base
  apply checkSetup_wp _ trivial
  have hmoved : (m.withStackvbase a base).InFrame a (pageFrame va) frame :=
    ⟨hframe.ne_zero, (pte_withStackvbase m a base a _).trans hframe.entry⟩
  have hsome : ((m.withStackvbase a base).pte a (pageFrame va)).isSome := by
    rw [hmoved.entry]
    rfl
  rw [makeTable_of_entry hsome, hmoved.mapPage]
  refine Prog.wp_mono hmoved.refill ?_ ?_ (fun _ h => h)
  · intro _ m' hentered
    refine ⟨base, ?_⟩
    have hsame : (m.withStackvbase a base).refillEntry a (pageFrame va) frame =
        m.refillEntry a (pageFrame va) frame := by
      simp [refillEntry, withStackvbase, tlbFlags, region]
    rwa [hsame] at hentered
  · intro _ m' hloaded
    exact Or.inr ⟨base, hloaded⟩

theorem fileImage_withStackvbase (m : Machine) (a : AsId) (base fa : Nat) :
    (m.withStackvbase a base).fileImage a fa = m.fileImage a fa := by
  simp [fileImage, withStackvbase, fileRange, region]

/-! The entry a refill writes. -/

structure EntryFor (e : TlbEntry) (vpage pid ppage : Nat) : Prop where
  vpage : e.vpage = vpage
  pid : e.pid = pid
  ppage : e.ppage = ppage
  valid : e.valid = true

theorem refillEntry_for (hpid : m.pid < 64) (hfa : fa % PAGE_SIZE = 0)
    (hpa : (m.coremap frame).pa % PAGE_SIZE = 0) :
    EntryFor (m.refillEntry a fa frame) fa m.pid (m.coremap frame).pa := by
  have hehi : fa ||| m.pid * 64 % 2 ^ 32 = fa + m.pid * 64 := by
    rw [Nat.mod_eq_of_lt (by omega)]
    exact page_or_eq_add hfa (by simp only [PAGE_SIZE]; omega)
  have helo : (m.coremap frame).pa ||| tlbFlags (m.addrspace a) fa =
      (m.coremap frame).pa + tlbFlags (m.addrspace a) fa := by
    apply page_or_eq_add hpa
    rcases tlbFlags_cases (m.addrspace a) fa with hflags | hflags
    · rw [hflags]
      decide
    · rw [hflags]
      decide
  simp only [PAGE_SIZE] at hfa hpa
  rcases tlbFlags_cases (m.addrspace a) fa with hflags | hflags
  all_goals
    rw [hflags] at helo
    constructor
    all_goals
      simp only [refillEntry, TlbEntry.vpage, TlbEntry.pid, TlbEntry.ppage, TlbEntry.valid,
        pageFrame, PAGE_SIZE, TLBLO_VALID, hehi, hflags, helo, decide_eq_true_eq]
      omega

/-! The TLB agrees with the page tables of the running thread. -/

structure Coherent (m : Machine) (a : AsId) : Prop where
  own : ∀ i < NUM_TLB, (m.tlb i).valid = true → (m.tlb i).pid = m.pid →
    ∃ frame, m.InFrame a (m.tlb i).vpage frame ∧ (m.tlb i).ppage = (m.coremap frame).pa
  zero : ∀ i < NUM_TLB, (m.tlb i).valid = true → (m.tlb i).pid = 0 → m.pid = 0
  stale : ∀ i < NUM_TLB, (m.tlb i).valid = false → (m.tlb i).pid = 0 ∨ (m.tlb i).pid = m.pid
  asid : m.asid = 0 ∨ m.asid = m.pid

/-- Where the page tables put the byte at `va`. -/
def home (m : Machine) (a : AsId) (va : Nat) : Nat :=
  (m.coremap (((m.pte a va).getD 0).tdiv 2).toNat).pa + va % PAGE_SIZE

theorem InFrame.home (hframe : m.InFrame a va frame) :
    m.home a va = (m.coremap frame).pa + va % PAGE_SIZE := by
  rw [Machine.home, hframe.entry, Option.getD_some, Int.mul_tdiv_cancel _ (by decide)]
  rfl

theorem SameRest.home (hrest : SameRest m m') (a : AsId) (va : Nat) :
    m'.home a va = m.home a va := by
  rw [Machine.home, Machine.home, hrest.pte, hrest.pa]

theorem SameRest.inFrame (hrest : SameRest m m') (hframe : m.InFrame a va frame) :
    m'.InFrame a va frame :=
  ⟨hframe.ne_zero, (hrest.pte a va).trans hframe.entry⟩

/-- Every slot is as before, or invalid, or for a page of the running thread. -/
theorem Coherent.of_slots (hcoherent : m.Coherent a) (hrest : SameRest m m')
    (hasid : m'.asid = 0 ∨ m'.asid = m'.pid)
    (hslots : ∀ i < NUM_TLB, m'.tlb i = m.tlb i ∨ m'.tlb i = .invalid i ∨
      ∃ va frame, m.InFrame a va frame ∧
        EntryFor (m'.tlb i) va m.pid (m.coremap frame).pa) : m'.Coherent a where
  own i hi hvalid hpid := by
    rcases hslots i hi with hsame | hinvalid | ⟨va, frame, hframe, hentry⟩
    · rw [hsame] at hvalid hpid ⊢
      obtain ⟨frame, hframe, hppage⟩ := hcoherent.own i hi hvalid (hpid.trans hrest.pid)
      exact ⟨frame, hrest.inFrame hframe, hppage.trans (hrest.pa frame).symm⟩
    · rw [hinvalid, valid_invalid] at hvalid
      cases hvalid
    · refine ⟨frame, ?_, hentry.ppage.trans (hrest.pa frame).symm⟩
      rw [hentry.vpage]
      exact hrest.inFrame hframe
  zero i hi hvalid hpid := by
    rw [hrest.pid]
    rcases hslots i hi with hsame | hinvalid | ⟨va, frame, hframe, hentry⟩
    · rw [hsame] at hvalid hpid
      exact hcoherent.zero i hi hvalid hpid
    · rw [hinvalid, valid_invalid] at hvalid
      cases hvalid
    · exact hentry.pid.symm.trans hpid
  stale i hi hinvalid := by
    rw [hrest.pid]
    rcases hslots i hi with hsame | hslot | ⟨va, frame, hframe, hentry⟩
    · rw [hsame] at hinvalid ⊢
      exact hcoherent.stale i hi hinvalid
    · rw [hslot]
      exact Or.inl (pid_invalid i)
    · rw [hentry.valid] at hinvalid
      cases hinvalid
  asid := hasid

/-- A hit leads where the page tables lead. -/
theorem Coherent.translate (hcoherent : m.Coherent a) (huser : va < KSEG0)
    (hhit : m.translate va = some (pa, writable)) :
    pa = m.home a va ∧ ∃ frame, m.InFrame a va frame := by
  have hmapped : ¬ (KSEG0 ≤ va ∧ va < 0xc0000000) := by omega
  rw [Machine.translate, if_neg hmapped, lookup] at hhit
  cases hfind : (List.range NUM_TLB).find? (m.matching va) with
  | none => simp [hfind] at hhit
  | some i =>
      have hi : i < NUM_TLB := List.mem_range.mp (List.mem_of_find?_eq_some hfind)
      have hmatch := List.find?_some hfind
      simp only [matching, decide_eq_true_eq] at hmatch
      simp only [hfind] at hhit
      by_cases hvalid : (m.tlb i).valid = true
      · have hpid : (m.tlb i).pid = m.pid := by
          rcases hcoherent.asid with hzero | hown
          · rw [hmatch.2, hzero]
            exact (hcoherent.zero i hi hvalid (hmatch.2.trans hzero)).symm
          · exact hmatch.2.trans hown
        obtain ⟨frame, hframe, hppage⟩ := hcoherent.own i hi hvalid hpid
        have hframe' : m.InFrame a va frame := by
          rw [hmatch.1] at hframe
          exact ⟨hframe.ne_zero, (pte_pageFrame m a va).symm.trans hframe.entry⟩
        simp [hvalid] at hhit
        refine ⟨?_, frame, hframe'⟩
        rw [hframe'.home, ← hhit.1, hppage]
      · simp [hvalid] at hhit

end OS161.VM.Machine
