import OS161.VM.AsCopy
import OS161.VM.Pager

namespace OS161.VM.Machine

open OS161.Data
open OS161.Kern
open OS161.Lib

/-! Facts about the address spaces other than what their tables say.  The steps
of the pager and of the loader keep them. -/

/-- The fact looks at the running process and, of each address space, at `view`,
which the page tables are no part of. -/
structure LooksAt (view : Addrspace → β) (inv : Machine → Prop) : Prop where
  congr : ∀ m m', (∀ a, view (m'.addrspace a) = view (m.addrspace a)) →
    m'.tVmspace = m.tVmspace → inv m → inv m'
  tables : ∀ as firstpt, view { as with firstpt := firstpt } = view as

namespace LooksAt

variable {view : Addrspace → β} {inv : Machine → Prop} {m : Machine}
variable {touch : Bool → Nat → Op Nat}

theorem update (h : LooksAt view inv) {f : Addrspace → Addrspace}
    (hf : ∀ as, view (f as) = view as) (a : AsId) (hinv : inv m) :
    inv { m with addrspace := Function.update m.addrspace a (f (m.addrspace a)) } := by
  refine h.congr m _ ?_ rfl hinv
  intro b
  by_cases hb : b = a
  · subst hb
    simp only [Function.update_self, hf]
  · simp only [Function.update_of_ne hb]

theorem setAddrspace (h : LooksAt view inv) {f : Addrspace → Addrspace} (a : AsId)
    (hf : ∀ as, view (f as) = view as) : Prog.Preserves inv (setAddrspace a f) :=
  .modify fun _ hinv => h.update hf a hinv

/-- A step that leaves the address spaces and the running process alone. -/
theorem modify (h : LooksAt view inv) {f : Machine → Machine}
    (hspaces : ∀ m, (f m).addrspace = m.addrspace) (hcurrent : ∀ m, (f m).tVmspace = m.tVmspace) :
    Prog.Preserves inv (Prog.modify f : Op Unit) :=
  .modify fun m hinv => h.congr m _ (fun _ => by rw [hspaces]) (hcurrent m) hinv

theorem setCoremap (h : LooksAt view inv) (index : Nat) (f : PageTableEntry → PageTableEntry) :
    Prog.Preserves inv (setCoremap index f) :=
  h.modify (fun _ => rfl) fun _ => rfl

theorem onGblBmp (h : LooksAt view inv) (body : Bitmap.Op α) :
    Prog.Preserves inv (onGblBmp body) :=
  .zoom _ fun m _ hinv => h.congr m _ (fun _ => rfl) rfl hinv

theorem tlbRead (h : LooksAt view inv) (i : Nat) : Prog.Preserves inv (tlbRead i) :=
  .bind .get fun _ => .bind (h.modify (fun _ => rfl) fun _ => rfl) fun _ => .ret _

theorem tlbWrite (h : LooksAt view inv) (e : TlbEntry) (i : Nat) :
    Prog.Preserves inv (tlbWrite e i) :=
  h.modify (fun _ => rfl) fun _ => rfl

theorem tlbFlush (h : LooksAt view inv) : Prog.Preserves inv tlbFlush := by
  refine .of_wp fun m hinv => ?_
  refine Prog.wp_mono (tlbFlush_returns m) ?_ (fun _ _ h => h.elim) (fun _ h => h.elim)
  rintro _ _ ⟨tlb, rfl, -⟩
  exact h.congr m _ (fun _ => rfl) rfl hinv

theorem tlbInsert (h : LooksAt view inv) (e : TlbEntry) (turns i : Nat) :
    Prog.Preserves inv (tlbInsert e turns i) := by
  induction turns generalizing i with
  | zero => exact .panic _
  | succ turns ih =>
      exact .bind (h.tlbRead i) fun _ => .ite _ (ih (i + 1))
        (.ite _ (.bind h.tlbFlush fun _ => h.tlbWrite e 0) (h.tlbWrite e i))

theorem tlbDrop (h : LooksAt view inv) (va turns i : Nat) :
    Prog.Preserves inv (tlbDrop va turns i) := by
  induction turns generalizing i with
  | zero => exact .ret ()
  | succ turns ih =>
      exact .bind (h.tlbRead i) fun _ => .ite _ (h.tlbWrite _ i) (ih (i + 1))

theorem readPte (a : AsId) (va : Nat) : Prog.Preserves inv (readPte a va) := by
  refine .bind .get fun m => ?_
  cases m.pte a va with
  | none => exact .panic _
  | some entry => exact .ret entry

theorem writePte (h : LooksAt view inv) (a : AsId) (va : Nat) (entry : Int) :
    Prog.Preserves inv (writePte a va entry) := by
  refine .bind .get fun m => ?_
  cases (m.addrspace a).firstpt (topten va) with
  | none => exact .panic _
  | some table => exact h.setAddrspace a fun as => h.tables as _

theorem getSinglepage (h : LooksAt view inv) : Prog.Preserves inv getSinglepage := by
  refine .of_wp fun m hinv => ?_
  apply getSinglepage_wp trivial
  · intro _
    exact hinv
  · intro index _ _
    exact h.congr m _ (fun _ => rfl) rfl hinv

theorem ptInsert (h : LooksAt view inv) (vaddr paddr : Nat) :
    Prog.Preserves inv (ptInsert vaddr paddr) :=
  .bind .get fun _ => .bind (h.setCoremap _ _) fun _ =>
    .bind (h.modify (fun _ => rfl) fun _ => rfl) fun _ => .when _ (h.onGblBmp _)

theorem kmallocTable (h : LooksAt view inv) : Prog.Preserves inv kmallocTable :=
  .bind h.getSinglepage fun _ => .bind (.assert _ _) fun _ =>
    .bind (h.setCoremap _ _) fun _ => .bind (h.ptInsert _ _) fun _ =>
      .bind .get fun _ => .bind (h.modify (fun _ => rfl) fun _ => rfl) fun _ => .ret _

theorem makeTable (h : LooksAt view inv) (a : AsId) (va : Nat) :
    Prog.Preserves inv (makeTable a va) :=
  .bind .get fun _ => .when _ (.bind h.kmallocTable fun _ =>
    h.setAddrspace a fun as => h.tables as _)

theorem frameIndex (a : AsId) (va : Nat) : Prog.Preserves inv (frameIndex a va) :=
  .bind (readPte a va) fun _ => .bind .get fun _ => .bind (.assert _ _) fun _ => .ret _

theorem pageRead (h : LooksAt view inv) (v : Vnode) (offset pa memsize filesize : Nat) :
    Prog.Preserves inv (pageRead v offset pa memsize filesize) := by
  refine .of_wp fun m hinv => ?_
  refine Prog.wp_mono (pageRead_wp m v offset pa memsize filesize) ?_ (fun _ _ _ => trivial)
    (fun _ h => h.elim)
  rintro _ _ rfl
  exact h.congr m _ (fun _ => rfl) rfl hinv

theorem loadPage (h : LooksAt view inv) (as : Addrspace) (a : AsId) (va : Nat) :
    Prog.Preserves inv (loadPage as a va) := by
  unfold Machine.loadPage
  cases fileRange as va with
  | none => exact .ret ()
  | some range =>
      exact .bind (frameIndex a va) fun _ => .bind .get fun _ =>
        .bind (h.setCoremap _ _) fun _ => h.pageRead _ _ _ _ _

theorem refill (h : LooksAt view inv) (a : AsId) (va : Nat) : Prog.Preserves inv (refill a va) :=
  .bind .get fun _ => .bind (h.loadPage _ a va) fun _ =>
    .bind (frameIndex a va) fun _ => .bind .get fun _ => h.tlbInsert _ _ _

/-! The parts that reach the page again. -/

theorem lhdIo (h : LooksAt view inv) (htouch : ∀ write, Prog.Preserves inv (touch write va))
    (write : Bool) (move : Nat → Machine → Machine)
    (hspaces : ∀ pa m, (move pa m).addrspace = m.addrspace)
    (hcurrent : ∀ pa m, (move pa m).tVmspace = m.tVmspace) :
    Prog.Preserves inv (lhdIo touch write va move) :=
  .bind .get fun _ => .bind (.assert _ _) fun _ =>
    .bind (h.modify (fun _ => rfl) fun _ => rfl) fun _ => .bind (htouch write) fun pa =>
      .bind (h.modify (hspaces pa) (hcurrent pa)) fun _ => h.modify (fun _ => rfl) fun _ => rfl

theorem setPte (h : LooksAt view inv) (a : AsId) (va : Nat) (entry : Int) (hinv : inv m) :
    inv (m.setPte a va entry) :=
  h.update (fun as => h.tables as _) a hinv

theorem evict (h : LooksAt view inv) (htouch : ∀ write, Prog.Preserves inv (touch write va)) :
    Prog.Preserves inv (evict touch va) := by
  refine .of_wp fun m hinv => evict_wp va (fun _ _ => trivial) (fun _ => hinv) ?_
  intro slot a _
  have hevicted : inv (m.evicted slot a) :=
    h.congr (m.setPte a (m.coremap m.findFifo).va (slot * 2 + 1)) _ (fun _ => rfl) rfl
      (h.setPte a _ _ hinv)
  refine Prog.wp_mono ((h.lhdIo htouch false (copyOut slot) (fun _ _ => rfl) fun _ _ => rfl).wp hevicted) ?_
    (fun _ _ h => h) (fun _ h => h)
  intro _ m' hinv'
  exact (h.tlbDrop _ _ _).wp hinv'

theorem swapIn (h : LooksAt view inv) (htouch : ∀ write, Prog.Preserves inv (touch write va))
    (slot : Nat) : Prog.Preserves inv (swapIn touch va slot) := by
  refine .of_wp fun m hinv => swapIn_wp va slot (fun _ _ => trivial) hinv ?_
  intro index a _ _ _ _
  have hswapped : inv (m.swappedIn slot index a) :=
    h.congr (m.setPte a (m.swapHolder slot).va (index * 2)) _ (fun _ => rfl) rfl
      (h.setPte a _ _ hinv)
  exact (h.lhdIo htouch true (copyIn slot) (fun _ _ => rfl) fun _ _ => rfl).wp hswapped

theorem getFrame (h : LooksAt view inv) (htouch : ∀ write, Prog.Preserves inv (touch write va))
    (turns : Nat) : Prog.Preserves inv (getFrame touch va turns) := by
  induction turns with
  | zero => exact .panic _
  | succ turns ih =>
      have hswap : Prog.Preserves inv (swapHandler touch 0 va) :=
        .bind (h.evict htouch) fun _ => .ite _ (.ret _) (.ret _)
      exact .bind h.getSinglepage fun _ => .ite _ (.ret _)
        (.bind hswap fun _ => .ite _ (.fail _) ih)

theorem newPage (h : LooksAt view inv) (htouch : ∀ write, Prog.Preserves inv (touch write va))
    (a : AsId) (turns : Nat) : Prog.Preserves inv (do
      let (temp, index) ← Machine.getFrame touch va turns
      Machine.setCoremap index fun e => { e with npages := 1 }
      Machine.writePte a va (index * 2)
      Machine.ptInsert va temp) :=
  .bind (h.getFrame htouch _) fun _ => .bind (h.setCoremap _ _) fun _ =>
    .bind (h.writePte _ _ _) fun _ => h.ptInsert _ _

/-- The two arguments of `swap_in` change places, so it may reach any page. -/
theorem mapPage (h : LooksAt view inv) (htouch : ∀ write va, Prog.Preserves inv (touch write va))
    (a : AsId) (va : Nat) : Prog.Preserves inv (mapPage touch a va) := by
  have hswap (index : Nat) : Prog.Preserves inv (swapHandler touch index va) :=
    .bind (h.evict fun write => htouch write va) fun _ =>
      .ite _ (.ret _) (.ite _ (h.swapIn (fun write => htouch write index) va) (.ret _))
  exact .bind (readPte a va) fun _ => .ite _
    (.bind (hswap _) fun _ => .when _ (.fail _))
    (.when _ (.bind .get fun _ => h.newPage (fun write => htouch write va) a _))

/-! The handler, for a view that the stack's base is no part of either. -/

theorem checkSetup (as : Addrspace) : Prog.Preserves inv (checkSetup as) :=
  .of_wp fun _ hinv => checkSetup_wp hinv trivial

theorem growStack (h : LooksAt view inv)
    (hbase : ∀ as base, view { as with asStackvbase := base } = view as) (a : AsId) (va : Nat) :
    Prog.Preserves inv (growStack a va) :=
  .bind .get fun _ => .when _ (h.setAddrspace a fun as => hbase as va)

theorem vmFaultWith (h : LooksAt view inv)
    (hbase : ∀ as base, view { as with asStackvbase := base } = view as)
    (htouch : ∀ write va, Prog.Preserves inv (touch write va)) (faulttype : FaultType)
    (address : Nat) : Prog.Preserves inv (vmFaultWith touch faulttype address) := by
  refine .ite _ (.fail _) (.ite _ (.panic _) (.bind .get fun m => ?_))
  cases m.tVmspace with
  | none => exact .fail _
  | some a =>
      exact .ite _ (.fail _) (.bind (h.growStack hbase a _) fun _ => .bind .get fun _ =>
        .bind (checkSetup _) fun _ => .bind (h.makeTable a _) fun _ =>
          .bind (h.mapPage htouch a _) fun _ => h.refill a _)

/-- An access comes back with no error code: the kernel stops at a fault that is not
handled. -/
theorem access_wp {fault : Nat → Op Unit} (hfault : ∀ va, Prog.Preserves inv (fault va))
    (hinv : inv m) (turns : Nat) (write : Bool) (va : Nat) :
    (access fault turns write va).wp (fun _ m' => inv m') (fun _ _ => False) (fun _ => True) m := by
  induction turns generalizing m with
  | zero => trivial
  | succ turns ih =>
      simp only [access, ↓Prog.wp_bind, ↓Prog.wp_get]
      split
      case h_1 pa writable hhit =>
          simp only [↓Prog.wp_bind, ↓Prog.wp_assert, ↓Prog.wp_pure]
          split
          · exact hinv
          · trivial
      case h_2 hmiss =>
          simp only [↓Prog.wp_bind, ↓Prog.wp_attempt]
          refine Prog.wp_mono ((hfault va).wp hinv) ?_ (fun _ _ _ => trivial) (fun _ h => h)
          intro _ m' hinv'
          exact ih hinv'

theorem preserves_access {fault : Nat → Op Unit} (hfault : ∀ va, Prog.Preserves inv (fault va))
    (turns : Nat) (write : Bool) (va : Nat) : Prog.Preserves inv (access fault turns write va) :=
  .of_wp fun _ hinv => Prog.wp_mono (access_wp hfault hinv turns write va) (fun _ _ h => h)
    (fun _ _ h => h.elim) (fun _ h => h)

theorem vmFault (h : LooksAt view inv)
    (hbase : ∀ as base, view { as with asStackvbase := base } = view as) (depth : Nat)
    (faulttype : FaultType) (address : Nat) :
    Prog.Preserves inv (vmFault depth faulttype address) := by
  induction depth generalizing faulttype address with
  | zero => exact .panic _
  | succ depth ih =>
      exact h.vmFaultWith hbase (preserves_access (fun va => ih .VM_FAULT_READ va) (depth + 1)) faulttype
        address

end LooksAt

end OS161.VM.Machine
