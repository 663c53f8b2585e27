import OS161.VM.Ownership
import OS161.VM.Refill

namespace OS161.VM.Machine

open OS161.Data
open OS161.Kern
open OS161.Lib

/-! Which accesses to resident pages miss, and what the misses do. -/

variable {m m' : Machine} {a : AsId} {va frame : Nat}

/-- The TLB after `tlbFlush`. -/
def emptied (tlb : Nat → TlbEntry) (i : Nat) : TlbEntry :=
  if i < NUM_TLB then .invalid i else tlb i

/-- The TLB after the search of `vm_fault` placed an entry. -/
def tlbFill (tlb : Nat → TlbEntry) (e : TlbEntry) : Nat → TlbEntry :=
  match (List.range 63).find? fun i => !(tlb i).valid with
  | some i => Function.update tlb i e
  | none => Function.update (emptied tlb) 0 e

/-- What `vm_fault` enters for a resident page. -/
def missEntry (m : Machine) (a : AsId) (va : Nat) : TlbEntry :=
  m.refillEntry a va (((m.pte a va).getD 0).tdiv 2).toNat

/-- The machine after an access to a resident page, as far as the TLB goes. -/
def touched (m : Machine) (a : AsId) (va : Nat) : Machine :=
  if (m.translate va).isSome then m
  else m.withTlb (tlbFill m.tlb (m.missEntry a va)) (m.missEntry a va).pid

def touchedAll (m : Machine) (a : AsId) (vas : List Nat) : Machine :=
  vas.foldl (fun s va => s.touched a va) m

/-- The accesses that miss, of those to the pages `vas` in this order. -/
def misses (m : Machine) (a : AsId) : List Nat → List Nat
  | [] => []
  | va :: vas =>
      if (m.translate va).isSome then misses m a vas
      else va :: misses (m.touched a va) a vas

theorem tlbFlush_emptied (m : Machine) :
    Prog.Returns tlbFlush (fun _ m' => m' = m.withTlb (emptied m.tlb) 0) m := by
  unfold tlbFlush
  refine Prog.wp_mono (Prog.wp_forFrom (fun i _ m' => ∃ asid,
    m' = m.withTlb (fun j => if j < i then .invalid j else m.tlb j) asid ∧ (0 < i → asid = 0))
    ?_ ?_) ?_ (fun _ _ h => h) (fun _ h => h)
  · rintro i _ _ - - ⟨asid, rfl, -⟩
    refine ⟨0, ?_, fun _ => rfl⟩
    have htlb : Function.update (fun j => if j < i then TlbEntry.invalid j else m.tlb j) i
        (.invalid i) = fun j => if j < i + 1 then .invalid j else m.tlb j := by
      funext j
      by_cases heq : j = i
      · rw [heq, Function.update_self, if_pos (Nat.lt_succ_self i)]
      · rw [Function.update_of_ne heq]
        by_cases hlt : j < i
        · rw [if_pos hlt, if_pos (by omega)]
        · rw [if_neg hlt, if_neg (by omega)]
    rw [← htlb, ← pid_invalid i]
    rfl
  · refine ⟨m.asid, ?_, fun h => absurd h (Nat.lt_irrefl 0)⟩
    rfl
  · rintro _ _ ⟨asid, rfl, hasid⟩
    rw [hasid (by decide), Nat.zero_add]
    rfl

theorem tlbInsert_fill (e : TlbEntry) (asid : Nat) (hlast : (m.tlb 63).valid = false)
    (hi : i + turns = NUM_TLB) (hbelow : ∀ j < i, (m.tlb j).valid = true) :
    Prog.Returns (tlbInsert e turns i)
      (fun _ m' => m' = m.withTlb (tlbFill m.tlb e) e.pid) (m.withTlb m.tlb asid) := by
  induction turns generalizing i asid with
  | zero =>
      have hfull := hbelow 63 (by simp only [NUM_TLB] at hi; omega)
      rw [hlast] at hfull
      cases hfull
  | succ turns ih =>
      simp only [tlbInsert, tlbRead, ↓Prog.wp_bind, ↓Prog.wp_get, ↓Prog.wp_modify,
        ↓Prog.wp_pure, ↓Prog.wp_ite]
      split
      case isTrue hvalid =>
          apply ih _ (by omega)
          intro j hj
          cases Nat.lt_succ_iff_lt_or_eq.mp hj with
          | inl hlt => exact hbelow j hlt
          | inr heq =>
              rw [heq]
              exact hvalid
      case isFalse hfree =>
      have hclear : (m.tlb i).valid = false := Bool.eq_false_iff.mpr hfree
      split
      case isTrue hfull =>
          have hnone : (List.range 63).find? (fun j => !(m.tlb j).valid) = none := by
            rw [List.find?_eq_none]
            intro j hj
            rw [hbelow j (by have := List.mem_range.mp hj; omega)]
            decide
          refine Prog.wp_mono (tlbFlush_emptied _) ?_ (fun _ _ h => h.elim) (fun _ h => h.elim)
          rintro _ _ rfl
          simp only [tlbWrite, ↓Prog.wp_modify, tlbFill, hnone]
          rfl
      case isFalse hlow =>
          have hfirst : (List.range 63).find? (fun j => !(m.tlb j).valid) = some i := by
            rw [List.find?_range_eq_some]
            refine ⟨by rw [hclear]; rfl, ?_, ?_⟩
            · rw [List.mem_range]
              simp only [NUM_TLB] at hi
              omega
            · intro j hj
              rw [hbelow j hj]
              rfl
          simp only [tlbWrite, ↓Prog.wp_modify, tlbFill, hfirst]
          rfl

/-- One slot takes the entry; the others are as before or empty. -/
theorem tlbFill_slots (tlb : Nat → TlbEntry) (e : TlbEntry) :
    ∃ k < 63, tlbFill tlb e k = e ∧
      ∀ i < NUM_TLB, i ≠ k → tlbFill tlb e i = .invalid i ∨ tlbFill tlb e i = tlb i := by
  cases hfirst : (List.range 63).find? fun i => !(tlb i).valid with
  | some k =>
      simp only [tlbFill, hfirst]
      rw [List.find?_range_eq_some] at hfirst
      refine ⟨k, List.mem_range.mp hfirst.2.1, Function.update_self .., ?_⟩
      intro i _ hne
      exact Or.inr (Function.update_of_ne hne ..)
  | none =>
      simp only [tlbFill, hfirst]
      refine ⟨0, by decide, Function.update_self .., ?_⟩
      intro i hi hne
      rw [Function.update_of_ne hne, emptied, if_pos hi]
      exact Or.inl rfl

/-! A TLB that only `vm_fault` and the flushes have written. -/

structure TlbReady (m : Machine) (a : AsId) : Prop where
  own : ∀ i < NUM_TLB, (m.tlb i).valid = true → (m.tlb i).pid = m.pid →
    ∃ frame, m.InFrame a (m.tlb i).vpage frame ∧ (m.tlb i).ppage = (m.coremap frame).pa
  idle : ∀ i < NUM_TLB, (m.tlb i).valid = false → m.tlb i = .invalid i
  last : (m.tlb 63).valid = false
  asid : m.asid = m.pid

theorem vpage_invalid_ge (i : Nat) : KSEG0 ≤ (TlbEntry.invalid i).vpage := by
  simp only [TlbEntry.vpage, TlbEntry.invalid, pageFrame, PAGE_SIZE, KSEG0]
  omega

theorem translate_user (huser : va < KSEG0) :
    m.translate va = (m.lookup va).map fun e => (e.ppage + va % PAGE_SIZE, e.dirty) := by
  rw [translate, if_neg (by omega)]

/-- A slot that matches a user address is valid. -/
theorem TlbReady.valid_of_matching (hready : m.TlbReady a) (huser : va < KSEG0)
    (hi : i < NUM_TLB) (hmatch : m.matching va i = true) : (m.tlb i).valid = true := by
  simp only [matching, decide_eq_true_eq] at hmatch
  by_contra hinvalid
  have hslot := hready.idle i hi (Bool.eq_false_iff.mpr hinvalid)
  have hvpage := hmatch.1
  have hge := vpage_invalid_ge i
  rw [hslot] at hvpage
  have hle : pageFrame va ≤ va := by
    simp only [pageFrame, PAGE_SIZE]
    omega
  omega

theorem TlbReady.hit (hready : m.TlbReady a) (huser : va < KSEG0)
    (hhit : m.translate va = some (pa, writable)) : pa = m.home a va := by
  rw [translate_user huser, lookup] at hhit
  cases hfind : (List.range NUM_TLB).find? (m.matching va) with
  | none => simp [hfind] at hhit
  | some i =>
      have hi : i < NUM_TLB := List.mem_range.mp (List.mem_of_find?_eq_some hfind)
      have hmatch := List.find?_some hfind
      have hvalid := hready.valid_of_matching huser hi hmatch
      simp only [matching, decide_eq_true_eq] at hmatch
      obtain ⟨frame, hframe, hppage⟩ := hready.own i hi hvalid (hmatch.2.trans hready.asid)
      rw [hmatch.1] at hframe
      have hframe' : m.InFrame a va frame :=
        ⟨hframe.ne_zero, (pte_pageFrame m a va).symm.trans hframe.entry⟩
      simp only [hfind, hvalid, if_true, Option.map_some, Option.some.injEq,
        Prod.mk.injEq] at hhit
      rw [hframe'.home, ← hhit.1, hppage]

theorem missEntry_eq (hframe : m.InFrame a va frame) :
    m.missEntry a va = m.refillEntry a va frame := by
  rw [missEntry, hframe.entry, Option.getD_some, Int.mul_tdiv_cancel _ (by decide)]
  rfl

/-- A resident page that user code can name, and its frame. -/
structure UserPage (m : Machine) (a : AsId) (va frame : Nat) : Prop where
  inFrame : m.InFrame a va frame
  user : va < KSEG0
  aligned : va % PAGE_SIZE = 0
  pa : (m.coremap frame).pa % PAGE_SIZE = 0

theorem UserPage.entry (hpage : m.UserPage a va frame) (hpid : m.pid < 64) :
    EntryFor (m.missEntry a va) va m.pid (m.coremap frame).pa := by
  rw [missEntry_eq hpage.inFrame]
  exact refillEntry_for hpid hpage.aligned hpage.pa

theorem UserPage.pageFrame (hpage : m.UserPage a va frame) : pageFrame va = va := by
  have haligned := hpage.aligned
  simp only [PAGE_SIZE] at haligned
  simp only [VM.pageFrame, PAGE_SIZE]
  omega

theorem UserPage.home (hpage : m.UserPage a va frame) :
    m.home a va = (m.coremap frame).pa := by
  rw [hpage.inFrame.home, hpage.aligned, Nat.add_zero]

theorem TlbReady.touched (hready : m.TlbReady a) (hpage : m.UserPage a va frame)
    (hpid : m.pid < 64) : (m.touched a va).TlbReady a := by
  unfold Machine.touched
  split
  · exact hready
  · have hentry := hpage.entry hpid
    obtain ⟨k, hk, htaken, hothers⟩ := tlbFill_slots m.tlb (m.missEntry a va)
    refine ⟨?_, ?_, ?_, hentry.pid⟩
    · intro i hi hvalid hown
      suffices hslot : ∃ frame, m.InFrame a (tlbFill m.tlb (m.missEntry a va) i).vpage frame ∧
          (tlbFill m.tlb (m.missEntry a va) i).ppage = (m.coremap frame).pa by
        obtain ⟨frame, hframe, hppage⟩ := hslot
        exact ⟨frame, ⟨hframe.ne_zero, hframe.entry⟩, hppage⟩
      replace hvalid : (tlbFill m.tlb (m.missEntry a va) i).valid = true := hvalid
      replace hown : (tlbFill m.tlb (m.missEntry a va) i).pid = m.pid := hown
      by_cases heq : i = k
      · rw [heq, htaken, hentry.vpage, hentry.ppage]
        exact ⟨frame, hpage.inFrame, rfl⟩
      · cases hothers i hi heq with
        | inl hempty =>
            rw [hempty, valid_invalid] at hvalid
            cases hvalid
        | inr hsame =>
            rw [hsame] at hvalid hown ⊢
            exact hready.own i hi hvalid hown
    · intro i hi hinvalid
      show tlbFill m.tlb (m.missEntry a va) i = .invalid i
      replace hinvalid : (tlbFill m.tlb (m.missEntry a va) i).valid = false := hinvalid
      by_cases heq : i = k
      · rw [heq, htaken, hentry.valid] at hinvalid
        cases hinvalid
      · cases hothers i hi heq with
        | inl hempty => exact hempty
        | inr hsame =>
            rw [hsame] at hinvalid ⊢
            exact hready.idle i hi hinvalid
    · show (tlbFill m.tlb (m.missEntry a va) 63).valid = false
      cases hothers 63 (by decide) (by omega) with
      | inl hempty => rw [hempty, valid_invalid]
      | inr hsame =>
          rw [hsame]
          exact hready.last

/-- The executable delivers what `page_read` asks for. -/
def Reads (v : Vnode) (range : Nat × Nat) : Prop :=
  (v range.1 (min range.2 PAGE_SIZE)).2 = none ∧
    min range.2 PAGE_SIZE ≤ (v range.1 (min range.2 PAGE_SIZE)).1.length

theorem pageRead_returns {v : Vnode} {range : Nat × Nat} (hreads : Reads v range)
    (m : Machine) (pa : Nat) :
    Prog.Returns (pageRead v range.1 pa PAGE_SIZE range.2)
      (fun _ m' => m' = m.withRam (overlay m.ram pa (pageImage v range.1 PAGE_SIZE range.2)))
      m := by
  have hdone : Prog.Returns (pageRead v range.1 pa PAGE_SIZE range.2) (fun _ _ => True) m := by
    simp only [pageRead, ↓Prog.wp_bind, ↓Prog.wp_modify, hreads.1, ↓Prog.wp_ite]
    rw [if_neg (by have := hreads.2; omega)]
    trivial
  exact Prog.wp_mono (Prog.wp_and (pageRead_wp m v range.1 pa PAGE_SIZE range.2) hdone)
    (fun _ _ h => h.1) (fun _ _ h => h.2) (fun _ h => h.1)

/-- A fault on the page leaves the base of the stack where it is, and reads from
the executable what is in the frame already. -/
structure Harmless (m : Machine) (a : AsId) (va : Nat) : Prop where
  stack : va + PAGE_SIZE < (m.addrspace a).asStackvbase ∨ va = (m.addrspace a).asStackvbase
  reads : ∀ range, fileRange (m.addrspace a) va = some range →
    Reads (m.addrspace a).asVnode range
  same : ∀ o byte, m.fileImage a va o = some byte → m.ram (m.home a va + o) = byte

/-- The assertions of `vm_fault`. -/
structure SetUp (as : Addrspace) : Prop where
  npages1 : as.asNpages1 ≠ 0
  vbase2 : as.asVbase2 ≠ 0
  npages2 : as.asNpages2 ≠ 0
  vbase1_aligned : as.asVbase1 % PAGE_SIZE = 0
  pbase1_aligned : as.asPbase1 % PAGE_SIZE = 0
  vbase2_aligned : as.asVbase2 % PAGE_SIZE = 0
  pbase2_aligned : as.asPbase2 % PAGE_SIZE = 0

theorem pageFrame_aligned (haligned : va % PAGE_SIZE = 0) : pageFrame va = va := by
  simp only [PAGE_SIZE] at haligned
  simp only [VM.pageFrame, PAGE_SIZE]
  omega

theorem SetUp.checkSetup {as : Addrspace} (hsetup : SetUp as) :
    Prog.Returns (checkSetup as) (fun _ m' => m' = m) m := by
  simp only [Machine.checkSetup, ↓Prog.wp_bind, ↓Prog.wp_assert,
    pageFrame_aligned hsetup.vbase1_aligned, pageFrame_aligned hsetup.pbase1_aligned,
    pageFrame_aligned hsetup.vbase2_aligned, pageFrame_aligned hsetup.pbase2_aligned, if_true,
    if_pos hsetup.npages1, if_pos hsetup.vbase2, if_pos hsetup.npages2]

theorem InFrame.frameIndex_returns (hframe : m.InFrame a va frame) (hlt : frame < m.maxPageNum) :
    Prog.Returns (Machine.frameIndex a va) (fun index m' => m' = m ∧ index = frame) m := by
  have hindex : ((frame : Int) * 2).tdiv 2 = frame := Int.mul_tdiv_cancel _ (by decide)
  simp only [Machine.frameIndex, ↓Prog.wp_bind, wp_readPte, hframe.entry, ↓Prog.wp_get,
    ↓Prog.wp_assert, ↓Prog.wp_pure, hindex]
  rw [if_pos ⟨by omega, by omega⟩]
  exact ⟨trivial, Int.toNat_natCast frame⟩

/-- What a harmless access leaves as it was. -/
structure SameButTlb (m m' : Machine) : Prop where
  ram : m'.ram = m.ram
  gblBmp : m'.gblBmp = m.gblBmp
  maxPageNum : m'.maxPageNum = m.maxPageNum
  memStart : m'.memStart = m.memStart
  addrspace : m'.addrspace = m.addrspace
  tVmspace : m'.tVmspace = m.tVmspace
  pid : m'.pid = m.pid
  pa : ∀ n, (m'.coremap n).pa = (m.coremap n).pa

theorem Harmless.loaded (hharmless : m.Harmless a va) (hpage : m.UserPage a va frame)
    (tlb : Nat → TlbEntry) (asid : Nat) :
    SameButTlb m ((m.loaded a va frame).withTlb tlb asid) := by
  have hram : (m.loaded a va frame).ram = m.ram := by
    rw [ram_loaded]
    funext x
    rw [overlay]
    split
    case isTrue hle =>
        cases himage : m.fileImage a va (x - (m.coremap frame).pa) with
        | none => rfl
        | some byte =>
            have hsame := hharmless.same _ byte himage
            rw [hpage.home, Nat.add_sub_cancel' hle] at hsame
            exact hsame.symm
    case isFalse => rfl
  refine ⟨hram, ?_, ?_, ?_, ?_, ?_, ?_, pa_loaded m a va frame⟩
  all_goals
    simp only [withTlb, Machine.loaded]
    split
    · rfl
    · rfl

theorem Harmless.loadPage (hharmless : m.Harmless a va) (hframe : m.InFrame a va frame)
    (hlt : frame < m.maxPageNum) :
    Prog.Returns (loadPage (m.addrspace a) a va) (fun _ m' => m' = m.loaded a va frame) m := by
  unfold Machine.loadPage
  cases hrange : fileRange (m.addrspace a) va with
  | none => simp [Machine.loaded, hrange]
  | some range =>
      simp only [↓Prog.wp_bind, Machine.loaded, fileImage, hrange]
      refine Prog.Returns.mono (hframe.frameIndex_returns hlt) ?_
      rintro index m' ⟨rfl, rfl⟩
      simp only [↓Prog.wp_get, setCoremap, ↓Prog.wp_modify]
      exact pageRead_returns (hharmless.reads range hrange) _ _

/-- A fault on a resident page, where the fault is harmless. -/
theorem Harmless.vmFault (hharmless : m.Harmless a va) (hpage : m.UserPage a va frame)
    (hlt : frame < m.maxPageNum) (hcurrent : m.tVmspace = some a) (hsetup : SetUp (m.addrspace a))
    (hlast : (m.tlb 63).valid = false) (hzero : va ≠ 0) (hguard : va ≠ 1073741824)
    (depth : Nat) :
    Prog.Returns (vmFault (depth + 1) .VM_FAULT_READ va)
      (fun _ m' => m' = (m.loaded a va frame).withTlb (tlbFill m.tlb (m.missEntry a va))
        (m.missEntry a va).pid) m := by
  have hsome : (m.pte a va).isSome := by
    rw [hpage.inFrame.entry]
    rfl
  have hgrow : Prog.Returns (growStack a va) (fun _ m' => m' = m) m := by
    simp only [growStack, setAddrspace, ↓Prog.wp_bind, ↓Prog.wp_get, ↓Prog.wp_when,
      ↓Prog.wp_modify]
    have huser := hpage.user
    simp only [KSEG0] at huser
    cases hharmless.stack with
    | inl hbelow =>
        rw [if_neg]
        simp only [PAGE_SIZE] at hbelow ⊢
        omega
    | inr hbase =>
        have hsame : m.withStackvbase a (m.addrspace a).asStackvbase = m := by
          simp [withStackvbase]
        rw [hbase]
        split
        · exact hsame
        · trivial
  simp only [Machine.vmFault, vmFaultWith, hpage.pageFrame, ↓Prog.wp_ite, ↓Prog.wp_bind,
    ↓Prog.wp_get, hcurrent]
  rw [if_neg hguard, if_neg (by decide), if_neg hzero]
  refine Prog.Returns.mono hgrow ?_
  intro _ m₁ hm₁
  subst m₁
  refine Prog.Returns.mono hsetup.checkSetup ?_
  intro _ m₁ hm₁
  subst m₁
  rw [makeTable_of_entry hsome, hpage.inFrame.mapPage]
  simp only [refill, ↓Prog.wp_bind, ↓Prog.wp_get]
  refine Prog.Returns.mono (hharmless.loadPage hpage.inFrame hlt) ?_
  rintro _ _ rfl
  have hrest := sameRest_loaded m a va frame
  have hmmu := mmu_loaded m a va frame
  have hsame := hharmless.loaded hpage m.tlb m.asid
  have hmax : (m.loaded a va frame).maxPageNum = m.maxPageNum := hsame.maxPageNum
  refine Prog.Returns.mono ((hrest.inFrame hpage.inFrame).frameIndex_returns ?_) ?_
  · rw [hmax]
    exact hlt
  rintro index m₁ ⟨hm₁, hindex⟩
  subst m₁ index
  rw [hrest.pid, hrest.pa, missEntry_eq hpage.inFrame]
  have hinsert := @tlbInsert_fill (m.loaded a va frame) 0 NUM_TLB (m.refillEntry a va frame)
    (m.loaded a va frame).asid (by rw [hmmu.1]; exact hlast) rfl
    (fun _ h => absurd h (Nat.not_lt_zero _))
  rw [← hmmu.1]
  exact hinsert

theorem translate_congr (htlb : m'.tlb = m.tlb) (hasid : m'.asid = m.asid) (va : Nat) :
    m'.translate va = m.translate va := by
  have hmatching : m'.matching va = m.matching va := by
    funext i
    rw [matching, matching, htlb, hasid]
  rw [translate, translate, lookup, lookup, hmatching, htlb]

end OS161.VM.Machine
