import OS161.VM.Pager
import OS161.VM.SwapRoundTrip

namespace OS161.VM.Machine

open OS161.Data
open OS161.Kern
open OS161.Lib

/-! Facts that the handler keeps on a page that misses the TLB.  There it evicts
a page only when every frame is in use. -/

variable {m m' : Machine} {a : AsId} {fa : Nat}

/-- The parts of the machine that decide where an access leads. -/
structure SameMmu (m m' : Machine) : Prop where
  tlb : m'.tlb = m.tlb
  asid : m'.asid = m.asid
  pid : m'.pid = m.pid
  tVmspace : m'.tVmspace = m.tVmspace

theorem SameMmu.translate (hsame : SameMmu m m') (va : Nat) :
    m'.translate va = m.translate va := by
  unfold Machine.translate lookup matching
  rw [hsame.tlb, hsame.asid]

theorem ptInsert_sameMmu (m₀ : Machine) (vaddr paddr : Nat) (hm : m₀.SameMmu m) :
    Prog.wp (ptInsert vaddr paddr) (fun _ m' => m₀.SameMmu m') (fun _ _ => True)
      (fun _ => True) m := by
  have hsame : ∀ coremap ref gblBmp, m₀.SameMmu
      { m with coremap := coremap, ref := ref, gblBmp := gblBmp } :=
    fun _ _ _ => ⟨hm.tlb, hm.asid, hm.pid, hm.tVmspace⟩
  simp only [ptInsert, setCoremap, onGblBmp, ↓Prog.wp_bind, ↓Prog.wp_get, ↓Prog.wp_modify,
    ↓Prog.wp_when, ↓Prog.wp_zoom, Bitmap.wp_bitmapMark]
  split
  case isFalse => exact hsame _ _ _
  case isTrue =>
  split
  case isFalse => trivial
  case isTrue => exact hsame _ _ _

theorem makeTable_sameMmu (m : Machine) (a : AsId) (va : Nat) :
    Prog.wp (makeTable a va) (fun _ m' => m.SameMmu m') (fun _ _ => True)
      (fun _ => True) m := by
  simp only [makeTable, kmallocTable, setAddrspace, ↓Prog.wp_bind, ↓Prog.wp_get,
    ↓Prog.wp_when, ↓Prog.wp_modify]
  split
  case isFalse => exact ⟨rfl, rfl, rfl, rfl⟩
  case isTrue =>
  apply getSinglepage_wp trivial
  · intro _
    simp
  · intro index _ _
    simp only [↓Prog.wp_assert, setCoremap, ↓Prog.wp_modify, ↓Prog.wp_pure]
    split
    case isFalse => trivial
    case isTrue =>
        refine Prog.wp_mono (ptInsert_sameMmu m _ _ ⟨rfl, rfl, rfl, rfl⟩) ?_ (fun _ _ h => h)
          (fun _ h => h)
        intro _ m' hsame
        exact ⟨hsame.tlb, hsame.asid, hsame.pid, hsame.tVmspace⟩

theorem translate_pageFrame (hmiss : m.translate va = none) :
    m.translate (pageFrame va) = none := by
  have hseg : KSEG0 ≤ pageFrame va ∧ pageFrame va < 0xc0000000 ↔
      KSEG0 ≤ va ∧ va < 0xc0000000 := by
    simp only [pageFrame, PAGE_SIZE, KSEG0]
    omega
  unfold translate lookup matching at hmiss ⊢
  simp only [hseg, pageFrame_idem]
  grind

theorem odd_of_tmod {entry : Int} (hodd : entry.tmod 2 = 1) :
    ∃ slot : Nat, entry = (slot : Int) * 2 + 1 := by
  have hnonneg : 0 ≤ entry := by
    by_contra hneg
    have hle := Int.tmod_nonneg 2 (show 0 ≤ -entry by omega)
    rw [Int.neg_tmod, hodd] at hle
    omega
  rw [Int.tmod_eq_emod_of_nonneg hnonneg] at hodd
  exact ⟨entry.toNat / 2, by omega⟩

/-- Every frame is in use. -/
def Full (m : Machine) : Prop := ∀ i < m.gblBmp.nbits, m.gblBmp.bitmapIsset i = true

/-- The page's entry does not hold a swap slot. -/
def EvenEntry (m : Machine) (a : AsId) (va : Nat) : Prop :=
  ∀ entry, m.pte a va = some entry → entry.tmod 2 ≠ 1

/-- What is asked of the steps of the handler that come before and after the
page gets its frame. -/
structure SideKeeps (inv : Machine → Prop) : Prop where
  growStack : ∀ a va, Keeps inv (fun _ => True) (growStack a va)
  makeTable : ∀ a va, Keeps inv (fun _ => True) (makeTable a va)
  refill : ∀ a va m, inv m → m.EvenEntry a (pageFrame va) →
    Prog.wp (refill a (pageFrame va)) (fun _ m' => inv m') (fun _ m' => inv m')
      (fun _ => True) m

/-- What is asked of the other steps while the thread of `cur` runs.  `good` is
what holds again once a page has got its frame. -/
structure MissKeeps (cur : Option AsId) (inv good : Machine → Prop)
    (ready : (temp index : Nat) → Machine → Prop) : Prop where
  side : SideKeeps inv
  current : ∀ m, inv m → m.tVmspace = cur
  weaken : ∀ m, good m → inv m
  full : ∀ m, inv m → m.Full → good m
  getSinglepage : ∀ m, inv m → Prog.wp getSinglepage
    (fun r m' => if r.1 ≠ 0 then ready r.1 r.2 m' else inv m' ∧ m'.Full)
    (fun _ _ => False) (fun _ => True) m
  giveFrame : ∀ a fa temp index m, cur = some a → ready temp index m →
    Prog.wp (giveFrame a fa temp index) (fun _ m' => good m') (fun _ _ => False)
      (fun _ => True) m
  evicted : ∀ m slot a, inv m → m.Full → m.Evictable slot a → inv (m.evicted slot a)
  lhClear : ∀ m free, inv m → inv { m with lhClear := free }
  copyOut : ∀ slot pa m, inv m → inv (copyOut slot pa m)
  tlbDrop : ∀ va m, inv m → Prog.wp (tlbDrop va NUM_TLB 0) (fun _ m' => inv m')
    (fun _ _ => False) (fun _ => True) m

theorem giveFrame_even (m : Machine) (a : AsId) (fa temp index : Nat) :
    Prog.wp (giveFrame a fa temp index) (fun _ m' => m'.EvenEntry a fa) (fun _ _ => True)
      (fun _ => True) m := by
  have heven (m' : Machine) (hpte : m'.pte a fa = (m.setPte a fa (index * 2)).pte a fa) :
      m'.EvenEntry a fa := by
    intro entry hentry
    rw [hpte, pte_setPte, if_pos ⟨rfl, rfl, rfl⟩, Option.map_eq_some_iff] at hentry
    obtain ⟨-, -, rfl⟩ := hentry
    rw [Int.mul_tmod_left]
    decide
  simp only [giveFrame, ptInsert, setCoremap, onGblBmp, ↓Prog.wp_bind, ↓Prog.wp_get,
    ↓Prog.wp_modify, wp_writePte, ↓Prog.wp_when, ↓Prog.wp_zoom, Bitmap.wp_bitmapMark]
  split
  case isFalse => trivial
  case isTrue =>
  split
  case isFalse => exact heven _ rfl
  case isTrue =>
  split
  case isFalse => trivial
  case isTrue => exact heven _ rfl

/-- The kernel reaches pages, and the fact stays. -/
abbrev Touches (inv : Machine → Prop) (touch : Bool → Nat → Op Nat) : Prop :=
  ∀ write va m, inv m → Prog.wp (touch write va) (fun _ m' => inv m') (fun _ _ => False)
    (fun _ => True) m

theorem Touches.lhdIo {inv : Machine → Prop} {touch : Bool → Nat → Op Nat}
    {move : Nat → Machine → Machine} (htouch : Touches inv touch)
    (hlhClear : ∀ m free, inv m → inv { m with lhClear := free })
    (hmove : ∀ pa m, inv m → inv (move pa m)) (hinv : inv m) (write : Bool) (va : Nat) :
    Prog.wp (lhdIo touch write va move) (fun _ m' => inv m') (fun _ _ => False)
      (fun _ => True) m := by
  simp only [Machine.lhdIo, ↓Prog.wp_bind, ↓Prog.wp_get, ↓Prog.wp_assert, ↓Prog.wp_modify]
  split
  case isFalse => trivial
  case isTrue =>
      refine Prog.wp_mono (htouch write va _ (hlhClear m false hinv)) ?_ (fun _ _ h => h)
        (fun _ h => h)
      intro pa m' hinv'
      exact hlhClear _ true (hmove pa m' hinv')

theorem Touches.access {inv : Machine → Prop} {fault : Nat → Op Unit}
    (hfault : ∀ va m, inv m → m.translate va = none →
      Prog.wp (fault va) (fun _ m' => inv m') (fun _ m' => inv m') (fun _ => True) m)
    (turns : Nat) : Touches inv (access fault turns) := by
  intro write va m hinv
  induction turns generalizing m with
  | zero => trivial
  | succ turns ih =>
      simp only [Machine.access, ↓Prog.wp_bind, ↓Prog.wp_get]
      split
      case h_1 pa writable _ =>
          simp only [↓Prog.wp_bind, ↓Prog.wp_assert, ↓Prog.wp_pure]
          split
          · exact hinv
          · trivial
      case h_2 hmiss =>
          simp only [↓Prog.wp_bind, ↓Prog.wp_attempt]
          refine Prog.wp_mono (hfault va m hinv hmiss) ?_ (fun _ _ _ => trivial) (fun _ h => h)
          intro _ m' hinv'
          exact ih m' hinv'

/-- The eviction for a page that is itself swapped out cannot succeed. -/
theorem swapHandler_swapped {touch : Bool → Nat → Op Nat} (hnever : NeverTouches touch a fa)
    (hout : m.SwappedOut a fa) (index : Nat) :
    Prog.wp (swapHandler touch index fa) (fun done m' => done = false ∧ m' = m)
      (fun _ _ => False) (fun _ => True) m := by
  simp only [swapHandler, ↓Prog.wp_bind]
  apply evict_wp fa (fun _ _ => trivial)
  · intro _
    simp
  · intro slot victim _
    refine Prog.wp_mono (lhdIo_swappedOut hnever ?_ false _) (fun _ _ h => h.elim)
      (fun _ _ h => h) (fun _ h => h)
    exact (hout.setPte victim _ slot).congr rfl rfl rfl rfl

namespace MissKeeps

variable {cur : Option AsId} {inv good : Machine → Prop} {ready : Nat → Nat → Machine → Prop}
variable {touch : Bool → Nat → Op Nat} {fact : Machine → Prop}

/-- What `evict` does once it has written its tables. -/
theorem evictRest (h : MissKeeps cur inv good ready) (htouch : Touches inv touch)
    (hinv : inv m) (va slot victim : Nat) :
    Prog.wp (lhdIo touch false va (Machine.copyOut slot))
      (fun _ m' => Prog.wp (Machine.tlbDrop victim NUM_TLB 0) (fun _ m'' => inv m'')
        (fun _ _ => False) (fun _ => True) m')
      (fun _ _ => False) (fun _ => True) m := by
  refine Prog.wp_mono (htouch.lhdIo h.lhClear (h.copyOut slot) hinv false va) ?_
    (fun _ _ h => h) (fun _ h => h)
  intro _ m' hinv'
  exact h.tlbDrop victim m' hinv'

theorem getFrame (h : MissKeeps cur inv good ready) (htouch : Touches inv touch)
    (va turns : Nat) (hinv : inv m) :
    Prog.wp (getFrame touch va turns) (fun r m' => ready r.1 r.2 m')
      (fun _ m' => good m') (fun _ => True) m := by
  induction turns generalizing m with
  | zero => trivial
  | succ turns ih =>
      simp only [Machine.getFrame, ↓Prog.wp_bind]
      refine Prog.wp_mono (h.getSinglepage m hinv) ?_ (fun _ _ h => h.elim) (fun _ h => h)
      intro r m₁ hr
      simp only [↓Prog.wp_ite, ↓Prog.wp_pure, ↓Prog.wp_bind, ↓Prog.wp_fail, swapHandler]
      split
      case isTrue hfound => simpa only [if_pos hfound] using hr
      case isFalse hnone =>
          rw [if_neg hnone] at hr
          apply evict_wp va (fun _ _ => trivial)
          · intro _
            exact h.full m₁ hr.1 hr.2
          · intro slot a hvictim
            refine Prog.wp_mono (h.evictRest htouch (h.evicted m₁ slot a hr.1 hr.2 hvictim)
              va slot (m₁.coremap m₁.findFifo).va) ?_ (fun _ _ h => h.elim) (fun _ h => h)
            intro _ m₂ hdrop
            refine Prog.wp_mono hdrop ?_ (fun _ _ h => h.elim) (fun _ h => h)
            intro _ m₃ hinv₃
            exact ih hinv₃

/-- A fact between `good` and `inv` is kept on the way to a frame. -/
theorem mapPage (h : MissKeeps cur inv good ready) (htouch : Touches inv touch)
    (hnever : NeverTouches touch a fa) (hcur : cur = some a)
    (hinv : ∀ m, fact m → inv m) (hgood : ∀ m, good m → fact m) (hfact : fact m)
    (hmiss : m.translate fa = none) :
    Prog.wp (mapPage touch a fa) (fun _ m' => fact m' ∧ m'.EvenEntry a fa)
      (fun _ m' => fact m') (fun _ => True) m := by
  simp only [Machine.mapPage, ↓Prog.wp_bind, wp_readPte]
  split
  case h_1 => trivial
  case h_2 entry hentry =>
  simp only [↓Prog.wp_ite, ↓Prog.wp_bind, ↓Prog.wp_when, ↓Prog.wp_get, ↓Prog.wp_fail]
  split
  case isTrue hodd =>
      obtain ⟨slot, rfl⟩ := odd_of_tmod hodd
      have hout : m.SwappedOut a fa :=
        ⟨(h.current m (hinv m hfact)).trans hcur, ⟨slot, hentry⟩, hmiss⟩
      refine Prog.wp_mono (swapHandler_swapped hnever hout _) ?_ (fun _ _ h => h.elim)
        (fun _ h => h)
      rintro done m' ⟨rfl, rfl⟩
      exact hfact
  case isFalse heven =>
  split
  case isFalse =>
      refine ⟨hfact, ?_⟩
      intro entry' hentry'
      rw [hentry, Option.some.injEq] at hentry'
      rw [← hentry']
      exact heven
  case isTrue =>
      refine Prog.wp_mono (h.getFrame htouch fa _ (hinv m hfact)) ?_ (fun _ m' h => hgood m' h)
        (fun _ h => h)
      intro r m' hr
      have hgive : Prog.wp (Machine.giveFrame a fa r.1 r.2)
          (fun _ m' => fact m' ∧ m'.EvenEntry a fa) (fun _ m' => fact m') (fun _ => True) m' :=
        Prog.wp_mono (Prog.wp_and (h.giveFrame a fa r.1 r.2 m' hcur hr)
          (giveFrame_even m' a fa r.1 r.2)) (fun _ m' h => ⟨hgood m' h.1, h.2⟩)
          (fun _ _ h => h.1.elim) (fun _ h => h.1)
      simpa only [Machine.giveFrame, ↓Prog.wp_bind] using hgive

theorem vmFaultWith (h : MissKeeps cur inv good ready) (htouch : Touches inv touch)
    (hnever : ∀ a, cur = some a → NeverTouches touch a (pageFrame address))
    (hside : SideKeeps fact) (hinv : ∀ m, fact m → inv m) (hgood : ∀ m, good m → fact m)
    (hfact : fact m) (hmiss : m.translate address = none) (faulttype : FaultType) :
    Prog.wp (vmFaultWith touch faulttype address) (fun _ m' => fact m') (fun _ m' => fact m')
      (fun _ => True) m := by
  simp only [Machine.vmFaultWith, ↓Prog.wp_ite, ↓Prog.wp_fail, ↓Prog.wp_panic, ↓Prog.wp_bind,
    ↓Prog.wp_get]
  split
  case isTrue => exact hfact
  case isFalse =>
  split
  case isTrue => trivial
  case isFalse =>
  split
  case h_1 => exact hfact
  case h_2 a hcurrent =>
  have hcur : cur = some a := (h.current m (hinv m hfact)).symm.trans hcurrent
  simp only [↓Prog.wp_ite, ↓Prog.wp_fail, ↓Prog.wp_bind, ↓Prog.wp_get]
  split
  case isTrue => exact hfact
  case isFalse =>
  have hgrow : Prog.wp (growStack a (pageFrame address)) (fun _ m' => m.SameMmu m')
      (fun _ _ => True) (fun _ => True) m := by
    apply growStack_wp
    intro base
    exact ⟨rfl, rfl, rfl, rfl⟩
  refine Prog.wp_mono (Prog.wp_and (hside.growStack a _ m hfact) hgrow) ?_ (fun _ _ h => h.1)
    (fun _ h => h.1)
  rintro _ m₁ ⟨hfact₁, hsame₁⟩
  apply checkSetup_wp _ trivial
  refine Prog.wp_mono (Prog.wp_and (hside.makeTable a _ m₁ hfact₁) (makeTable_sameMmu m₁ a _))
    ?_ (fun _ _ h => h.1) (fun _ h => h.1)
  rintro _ m₂ ⟨hfact₂, hsame₂⟩
  have hmiss₂ : m₂.translate (pageFrame address) = none := by
    rw [hsame₂.translate, hsame₁.translate]
    exact translate_pageFrame hmiss
  refine Prog.wp_mono (h.mapPage htouch (hnever a hcur) hcur hinv hgood hfact₂ hmiss₂) ?_
    (fun _ _ h => h) (fun _ h => h)
  rintro _ m₃ ⟨hfact₃, heven⟩
  exact hside.refill a address m₃ hfact₃ heven

/-- The faults that nest inside the handler keep the weaker fact. -/
theorem nested (h : MissKeeps cur inv good ready) (depth : Nat) (faulttype : FaultType)
    (hinv : inv m) (hmiss : m.translate address = none) :
    Prog.wp (vmFault depth faulttype address) (fun _ m' => inv m') (fun _ m' => inv m')
      (fun _ => True) m := by
  induction depth generalizing m address faulttype with
  | zero => trivial
  | succ depth ih =>
      apply h.vmFaultWith (Touches.access _ _) _ h.side (fun _ hinv => hinv) h.weaken hinv
        hmiss faulttype
      · intro va m' hinv' hmiss'
        exact ih .VM_FAULT_READ hinv' hmiss'
      · intro a _
        exact vmFault_neverTouches depth address

theorem vmFault (h : MissKeeps cur inv good ready) (hside : SideKeeps fact)
    (hinv : ∀ m, fact m → inv m) (hgood : ∀ m, good m → fact m) (depth : Nat)
    (faulttype : FaultType) (hfact : fact m) (hmiss : m.translate address = none) :
    Prog.wp (vmFault depth faulttype address) (fun _ m' => fact m') (fun _ m' => fact m')
      (fun _ => True) m := by
  cases depth with
  | zero => trivial
  | succ depth =>
      apply h.vmFaultWith (Touches.access _ _) _ hside hinv hgood hfact hmiss faulttype
      · intro va m' hinv' hmiss'
        exact h.nested depth .VM_FAULT_READ hinv' hmiss'
      · intro a _
        exact vmFault_neverTouches depth address

/-- Outside the handler the kernel reaches pages with the same faults. -/
theorem kernelTouch (h : MissKeeps cur inv good ready) (hside : SideKeeps fact)
    (hinv : ∀ m, fact m → inv m) (hgood : ∀ m, good m → fact m) (depth : Nat) :
    Touches fact (access (Machine.vmFault depth .VM_FAULT_READ) (depth + 1)) := by
  apply Touches.access
  intro va m hfact hmiss
  exact h.vmFault hside hinv hgood depth .VM_FAULT_READ hfact hmiss

end MissKeeps

end OS161.VM.Machine
