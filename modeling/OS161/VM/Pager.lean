import OS161.VM.Paging

namespace OS161.VM.Machine

open OS161.Data
open OS161.Kern
open OS161.Lib

/-! Facts that the pager keeps.  What each step of it keeps, the fault handler
keeps too, with all the faults that nest inside it. -/

variable {m : Machine} {touch : Bool → Nat → Op Nat}

/-- The machine after `evict` has written its tables and before it copies. -/
def evicted (m : Machine) (slot : Nat) (a : AsId) : Machine :=
  { m.setPte a (m.coremap m.findFifo).va (slot * 2 + 1) with
    swapBmp := m.swapBmp.mark slot
    swapHolder := Function.update m.swapHolder slot
      { m.swapHolder slot with
        va := (m.coremap m.findFifo).va
        npages := (m.coremap m.findFifo).npages
        addr := (m.coremap m.findFifo).addr }
    gblBmp := m.gblBmp.unmark m.findFifo
    coremap := Function.update m.coremap m.findFifo
      { m.coremap m.findFifo with
        addr := none
        va := 0
        npages := 0
        time := 0
        valid := false } }

/-- What `evict` found out about its victim. -/
structure Evictable (m : Machine) (slot : Nat) (a : AsId) : Prop where
  lowest : m.swapBmp.Lowest slot
  slot_lt : slot < m.swapBmp.nbits
  lt : m.findFifo < m.gblBmp.nbits
  marked : m.gblBmp.bitmapIsset m.findFifo = true
  addr : (m.coremap m.findFifo).addr = some a
  table : (m.pte a (m.coremap m.findFifo).va).isSome

theorem evict_wp {post : Bool → Machine → Prop} {fails : Errno → Machine → Prop}
    {bad : Fault → Prop} (va : Nat) (hpanics : ∀ reason, reason ≠ .vmFaultNoReturn → bad reason)
    (hfull : (∀ j < m.swapBmp.words * 8, m.swapBmp.bitmapIsset j = true) → post false m)
    (hvictim : ∀ slot a, m.Evictable slot a →
      Prog.wp (lhdIo touch false va (copyOut slot))
        (fun _ m' => Prog.wp (tlbDrop (m.coremap m.findFifo).va NUM_TLB 0)
          (fun _ m'' => post true m'') fails bad m')
        fails bad (m.evicted slot a)) :
    Prog.wp (evict touch va) post fails bad m := by
  simp only [evict, onSwapBmp, onGblBmp, ↓Prog.wp_bind, ↓Prog.wp_attempt, ↓Prog.wp_zoom]
  have halloc := Bitmap.bitmapAlloc_wp m.swapBmp
  refine Prog.wp_mono halloc ?_ ?_ ?_
  · rintro slot swapBmp ⟨hlowest, hslot, rfl⟩
    simp only [↓Prog.wp_get, ↓Prog.wp_modify, Bitmap.wp_bitmapUnmark, ↓Prog.wp_assert]
    split
    case isFalse => exact hpanics _ (by decide)
    case isTrue hlt =>
    split
    case isFalse => exact hpanics _ (by decide)
    case isTrue hmarked =>
    split
    case isFalse => exact hpanics _ (by decide)
    case isTrue =>
    split
    case h_1 => exact hpanics _ (by decide)
    case h_2 a haddr =>
        simp only [↓Prog.wp_bind, wp_writePte, setCoremap, ↓Prog.wp_modify]
        split
        case isFalse => exact hpanics _ (by decide)
        case isTrue htable =>
            exact hvictim slot a ⟨hlowest, hslot, hlt, hmarked, haddr, htable⟩
  · rintro code swapBmp ⟨-, rfl, hall⟩
    exact hfull hall
  · rintro reason ⟨rfl, -⟩
    exact hpanics _ (by decide)

/-- The machine after `swap_in` has written its tables and before it copies. -/
def swappedIn (m : Machine) (slot index : Nat) (a : AsId) : Machine :=
  { m.setPte a (m.swapHolder slot).va (index * 2) with
    gblBmp := m.gblBmp.mark index
    coremap := Function.update m.coremap index
      { m.coremap index with
        va := (m.swapHolder slot).va
        npages := (m.swapHolder slot).npages
        time := m.ref
        valid := true }
    ref := (m.ref + 1) % 2 ^ 32
    swapBmp := m.swapBmp.unmark slot }

theorem swapIn_wp {post : Bool → Machine → Prop} {fails : Errno → Machine → Prop}
    {bad : Fault → Prop} (va slot : Nat)
    (hpanics : ∀ reason, reason ≠ .vmFaultNoReturn → bad reason)
    (hfull : post false m)
    (hframe : ∀ index a, m.gblBmp.Lowest index → index < m.gblBmp.nbits →
      (m.swapHolder slot).addr = some a → (m.pte a (m.swapHolder slot).va).isSome →
      Prog.wp (lhdIo touch true va (copyIn slot)) (fun _ m' => post true m') fails bad
        (m.swappedIn slot index a)) :
    Prog.wp (swapIn touch va slot) post fails bad m := by
  simp only [swapIn, onSwapBmp, onGblBmp, ↓Prog.wp_bind, ↓Prog.wp_attempt, ↓Prog.wp_zoom]
  refine Prog.wp_mono (Bitmap.bitmapAlloc_wp m.gblBmp) ?_ ?_ ?_
  · rintro index gblBmp ⟨hlowest, hlt, rfl⟩
    simp only [↓Prog.wp_get, ↓Prog.wp_assert]
    split
    case isFalse => exact hpanics _ (by decide)
    case isTrue =>
    split
    case h_1 => exact hpanics _ (by decide)
    case h_2 a haddr =>
        simp only [↓Prog.wp_bind, wp_writePte, setCoremap, ↓Prog.wp_modify, ↓Prog.wp_zoom,
          Bitmap.wp_bitmapUnmark]
        split
        case isFalse => exact hpanics _ (by decide)
        case isTrue htable =>
        split
        case isFalse => exact hpanics _ (by decide)
        case isTrue =>
        split
        case isFalse => exact hpanics _ (by decide)
        case isTrue => exact hframe index a hlowest hlt haddr htable
  · rintro code gblBmp ⟨-, rfl, -⟩
    exact hfull
  · rintro reason ⟨rfl, -⟩
    exact hpanics _ (by decide)

/-! The rule. -/

/-- The operation keeps the fact, whether it returns an error code or not. -/
abbrev Keeps (inv : Machine → Prop) (bad : Fault → Prop) (body : Op α) : Prop :=
  ∀ m, inv m → Prog.wp body (fun _ m' => inv m') (fun _ m' => inv m') bad m

/-- The end of the branch of `vm_fault` for a page that was never mapped. -/
def giveFrame (a : AsId) (fa temp index : Nat) : Op Unit := do
  setCoremap index fun e => { e with npages := 1 }
  writePte a fa (index * 2)
  ptInsert fa temp

/-- What is asked of the steps of the pager.  `ready` holds between the call that
takes a frame and the one that gives it to a page; `mapped` is what is known of
the pages that fault. -/
structure PagerKeeps (inv : Machine → Prop) (bad : Fault → Prop)
    (ready : (temp index : Nat) → Machine → Prop) (mapped : Nat → Prop) : Prop where
  miss : ∀ m va, inv m → m.translate va = none → mapped (pageFrame va)
  panics : ∀ reason, reason ≠ .vmFaultNoReturn → bad reason
  growStack : ∀ a va, Keeps inv bad (growStack a va)
  makeTable : ∀ a va, mapped va → Keeps inv bad (makeTable a va)
  getSinglepage : ∀ m, inv m → Prog.wp getSinglepage
    (fun r m' => if r.1 ≠ 0 then ready r.1 r.2 m' else inv m') (fun _ m' => inv m') bad m
  giveFrame : ∀ a fa temp index m, mapped fa → ready temp index m →
    Prog.wp (giveFrame a fa temp index) (fun _ m' => inv m') (fun _ m' => inv m') bad m
  evicted : ∀ m slot a, inv m → m.Evictable slot a → inv (m.evicted slot a)
  swappedIn : ∀ m slot index a, inv m → m.gblBmp.Lowest index → index < m.gblBmp.nbits →
    (m.swapHolder slot).addr = some a → (m.pte a (m.swapHolder slot).va).isSome →
    inv (m.swappedIn slot index a)
  lhClear : ∀ m free, inv m → inv { m with lhClear := free }
  copyOut : ∀ slot pa m, inv m → inv (copyOut slot pa m)
  copyIn : ∀ slot pa m, inv m → inv (copyIn slot pa m)
  tlbDrop : ∀ va, Keeps inv bad (tlbDrop va NUM_TLB 0)
  refill : ∀ a va, Keeps inv bad (refill a (pageFrame va))

namespace PagerKeeps

variable {inv : Machine → Prop} {bad : Fault → Prop} {ready : Nat → Nat → Machine → Prop}
variable {mapped : Nat → Prop}

theorem lhdIo (h : PagerKeeps inv bad ready mapped)
    (htouch : ∀ write va, Keeps inv bad (touch write va)) (write : Bool) (va : Nat)
    {move : Nat → Machine → Machine} (hmove : ∀ pa m, inv m → inv (move pa m)) :
    Keeps inv bad (lhdIo touch write va move) := by
  intro m hinv
  simp only [Machine.lhdIo, ↓Prog.wp_bind, ↓Prog.wp_get, ↓Prog.wp_assert, ↓Prog.wp_modify]
  split
  case isFalse => exact h.panics _ (by decide)
  case isTrue =>
      refine Prog.wp_mono (htouch write va _ (h.lhClear m false hinv)) ?_ (fun _ _ h => h)
        (fun _ h => h)
      intro pa m' hinv'
      exact h.lhClear _ true (hmove pa m' hinv')

theorem evict (h : PagerKeeps inv bad ready mapped) (htouch : ∀ write va, Keeps inv bad (touch write va))
    (va : Nat) : Keeps inv bad (evict touch va) := by
  intro m hinv
  apply evict_wp va h.panics
  · intro _
    exact hinv
  · intro slot a hvictim
    refine Prog.wp_mono (h.lhdIo htouch false va (h.copyOut slot) _
      (h.evicted m slot a hinv hvictim)) ?_ (fun _ _ h => h) (fun _ h => h)
    intro _ m' hinv'
    exact h.tlbDrop _ m' hinv'

theorem swapIn (h : PagerKeeps inv bad ready mapped) (htouch : ∀ write va, Keeps inv bad (touch write va))
    (va slot : Nat) : Keeps inv bad (swapIn touch va slot) := by
  intro m hinv
  apply swapIn_wp va slot h.panics hinv
  intro index a hlowest hlt haddr htable
  exact h.lhdIo htouch true va (h.copyIn slot) _
    (h.swappedIn m slot index a hinv hlowest hlt haddr htable)

theorem swapHandler (h : PagerKeeps inv bad ready mapped)
    (htouch : ∀ write va, Keeps inv bad (touch write va)) (index va : Nat) :
    Keeps inv bad (swapHandler touch index va) := by
  intro m hinv
  simp only [Machine.swapHandler, ↓Prog.wp_bind]
  refine Prog.wp_mono (h.evict htouch va m hinv) ?_ (fun _ _ h => h) (fun _ h => h)
  intro done m' hinv'
  simp only [↓Prog.wp_ite, ↓Prog.wp_pure]
  split
  · exact hinv'
  · split
    · exact h.swapIn htouch index va m' hinv'
    · exact hinv'

theorem getFrame (h : PagerKeeps inv bad ready mapped)
    (htouch : ∀ write va, Keeps inv bad (touch write va)) (va turns : Nat) (hinv : inv m) :
    Prog.wp (getFrame touch va turns) (fun r m' => ready r.1 r.2 m')
      (fun _ m' => inv m') bad m := by
  induction turns generalizing m with
  | zero => exact h.panics _ (by decide)
  | succ turns ih =>
      simp only [Machine.getFrame, ↓Prog.wp_bind]
      refine Prog.wp_mono (h.getSinglepage m hinv) ?_ (fun _ _ h => h) (fun _ h => h)
      intro r m' hr
      simp only [↓Prog.wp_ite, ↓Prog.wp_pure, ↓Prog.wp_bind, ↓Prog.wp_fail]
      split
      case isTrue hfound => simpa only [if_pos hfound] using hr
      case isFalse hnone =>
          rw [if_neg hnone] at hr
          refine Prog.wp_mono (h.swapHandler htouch 0 va m' hr) ?_ (fun _ _ h => h)
            (fun _ h => h)
          intro done m'' hinv''
          cases done with
          | false => exact hinv''
          | true => exact ih hinv''

theorem mapPage (h : PagerKeeps inv bad ready mapped)
    (htouch : ∀ write va, Keeps inv bad (touch write va)) (a : AsId) (fa : Nat)
    (hfa : mapped fa) : Keeps inv bad (mapPage touch a fa) := by
  intro m hinv
  simp only [Machine.mapPage, ↓Prog.wp_bind, wp_readPte]
  split
  case h_1 => exact h.panics _ (by decide)
  case h_2 entry hentry =>
  simp only [↓Prog.wp_ite, ↓Prog.wp_bind, ↓Prog.wp_when, ↓Prog.wp_get, ↓Prog.wp_fail]
  split
  case isTrue =>
      refine Prog.wp_mono (h.swapHandler htouch _ fa m hinv) ?_ (fun _ _ h => h) (fun _ h => h)
      intro done m' hinv'
      split
      · exact hinv'
      · exact hinv'
  case isFalse =>
  split
  case isFalse => exact hinv
  case isTrue =>
      refine Prog.wp_mono (h.getFrame htouch fa _ hinv) ?_ (fun _ _ h => h) (fun _ h => h)
      intro r m' hr
      have hgive := h.giveFrame a fa r.1 r.2 m' hfa hr
      simpa only [Machine.giveFrame, ↓Prog.wp_bind] using hgive

/-- A handler that comes back ends in `refill`, from a state that has the fact. -/
theorem vmFaultWith_ends (h : PagerKeeps inv bad ready mapped)
    (htouch : ∀ write va, Keeps inv bad (touch write va)) (faulttype : FaultType)
    (hmapped : mapped (pageFrame address)) {post : Unit → Machine → Prop}
    (hrefill : ∀ a m, inv m →
      Prog.wp (Machine.refill a (pageFrame address)) post (fun _ m' => inv m') bad m)
    (hinv : inv m) :
    Prog.wp (vmFaultWith touch faulttype address) post (fun _ m' => inv m') bad m := by
  simp only [Machine.vmFaultWith, ↓Prog.wp_ite, ↓Prog.wp_fail, ↓Prog.wp_panic, ↓Prog.wp_bind,
    ↓Prog.wp_get]
  split
  case isTrue => exact hinv
  case isFalse =>
  split
  case isTrue => exact h.panics _ (by decide)
  case isFalse =>
  split
  case h_1 => exact hinv
  case h_2 a hcurrent =>
  simp only [↓Prog.wp_ite, ↓Prog.wp_fail, ↓Prog.wp_bind, ↓Prog.wp_get]
  split
  case isTrue => exact hinv
  case isFalse =>
  refine Prog.wp_mono (h.growStack a _ m hinv) ?_ (fun _ _ h => h) (fun _ h => h)
  intro _ m₁ hinv₁
  apply checkSetup_wp _ (h.panics _ (by decide))
  refine Prog.wp_mono (h.makeTable a _ hmapped m₁ hinv₁) ?_ (fun _ _ h => h) (fun _ h => h)
  intro _ m₂ hinv₂
  refine Prog.wp_mono (h.mapPage htouch a _ hmapped m₂ hinv₂) ?_ (fun _ _ h => h) (fun _ h => h)
  intro _ m₃ hinv₃
  exact hrefill a m₃ hinv₃

theorem vmFaultWith (h : PagerKeeps inv bad ready mapped)
    (htouch : ∀ write va, Keeps inv bad (touch write va)) (faulttype : FaultType)
    (hmapped : mapped (pageFrame address)) :
    Keeps inv bad (vmFaultWith touch faulttype address) :=
  fun _ hinv => h.vmFaultWith_ends htouch faulttype hmapped (fun a m => h.refill a _ m) hinv

theorem access (h : PagerKeeps inv bad ready mapped) {fault : Nat → Op Unit}
    (hfault : ∀ va, mapped (pageFrame va) → Keeps inv bad (fault va)) (turns : Nat) (write : Bool) (va : Nat) :
    Keeps inv bad (access fault turns write va) := by
  intro m hinv
  induction turns generalizing m with
  | zero => exact h.panics _ (by decide)
  | succ turns ih =>
      simp only [Machine.access, ↓Prog.wp_bind, ↓Prog.wp_get]
      split
      case h_1 pa writable hhit =>
          simp only [↓Prog.wp_bind, ↓Prog.wp_assert, ↓Prog.wp_pure]
          split
          · exact hinv
          · exact h.panics _ (by decide)
      case h_2 hmiss =>
          simp only [↓Prog.wp_bind, ↓Prog.wp_attempt]
          refine Prog.wp_mono (hfault va (h.miss m va hinv hmiss) m hinv) ?_ ?_ (fun _ h => h)
          · intro _ m' hinv'
            exact ih m' hinv'
          · intro code m' _
            exact h.panics _ (by decide)

/-- The handler with the faults that nest inside it. -/
theorem vmFault (h : PagerKeeps inv bad ready mapped) (depth : Nat) (faulttype : FaultType)
    (hmapped : mapped (pageFrame address)) : Keeps inv bad (vmFault depth faulttype address) := by
  induction depth generalizing faulttype address with
  | zero =>
      intro m _
      exact h.panics _ (by decide)
  | succ depth ih =>
      intro m hinv
      refine h.vmFaultWith (h.access ?_ (depth + 1)) faulttype hmapped m hinv
      intro va hva
      exact ih .VM_FAULT_READ hva

theorem vmFault_ends (h : PagerKeeps inv bad ready mapped) (depth : Nat) (faulttype : FaultType)
    (hmapped : mapped (pageFrame address)) {post : Unit → Machine → Prop}
    (hrefill : ∀ a m, inv m →
      Prog.wp (Machine.refill a (pageFrame address)) post (fun _ m' => inv m') bad m)
    (hinv : inv m) :
    Prog.wp (Machine.vmFault depth faulttype address) post (fun _ m' => inv m') bad m := by
  cases depth with
  | zero => exact h.panics _ (by decide)
  | succ depth =>
      refine h.vmFaultWith_ends (h.access ?_ (depth + 1)) faulttype hmapped hrefill hinv
      intro va hva
      exact h.vmFault depth .VM_FAULT_READ hva

/-- Outside the handler the kernel reaches pages with the same faults. -/
theorem kernelTouch (h : PagerKeeps inv bad ready mapped) (depth : Nat) (write : Bool) (va : Nat) :
    Keeps inv bad (Machine.access (Machine.vmFault depth .VM_FAULT_READ) (depth + 1) write va) :=
  h.access (fun _ hva => h.vmFault depth .VM_FAULT_READ hva) (depth + 1) write va

end PagerKeeps

end OS161.VM.Machine
