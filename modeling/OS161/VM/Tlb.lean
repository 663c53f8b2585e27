import OS161.VM.Pager

namespace OS161.VM.Machine

open OS161.Data
open OS161.Kern
open OS161.Lib

/-! What the pager does to the TLB: it drops entries and places entries of the
running thread. -/

variable {m m' : Machine} {pid : Nat} {fact : (Nat → TlbEntry) → Prop}

/-- A fact about the slots that an empty TLB has and that these changes keep. -/
structure TlbFact (pid : Nat) (fact : (Nat → TlbEntry) → Prop) : Prop where
  empty : ∀ tlb, (∀ i < NUM_TLB, tlb i = .invalid i) → fact tlb
  drop : ∀ tlb i, fact tlb → fact (Function.update tlb i (.invalid i))
  place : ∀ tlb i e, i < 63 → (tlb i).valid = false → e.pid = pid → e.valid = true →
    fact tlb → fact (Function.update tlb i e)

/-- The fact holds of the TLB, and the thread with `pid` runs. -/
def OnTlb (fact : (Nat → TlbEntry) → Prop) (pid : Nat) (m : Machine) : Prop :=
  fact m.tlb ∧ m.pid = pid

/-- `vm_fault` falls off its end only where the last slot is valid. -/
def FallsOff (fact : (Nat → TlbEntry) → Prop) (reason : Fault) : Prop :=
  reason = .vmFaultNoReturn → ∃ tlb, fact tlb ∧ (tlb 63).valid = true

theorem fallsOff_of_ne (hne : reason ≠ .vmFaultNoReturn) : FallsOff fact reason :=
  fun heq => absurd heq hne

theorem TlbFact.placed (hfact : TlbFact pid fact) (htlb : fact m.tlb)
    (hpid : e.pid = pid) (hvalid : e.valid = true) (hplaced : m.Placed e m') :
    fact m'.tlb ∧ m'.pid = m.pid := by
  cases hplaced with
  | first hi hfree => exact ⟨hfact.place _ _ _ hi hfree hpid hvalid htlb, rfl⟩
  | flushed hall =>
      refine ⟨hfact.place _ _ _ (by decide) ?_ hpid hvalid (hfact.empty _ hall), rfl⟩
      rw [hall 0 (by decide)]
      exact valid_invalid 0

/-! Steps that leave the TLB alone. -/

theorem getSinglepage_onTlb (hm : OnTlb fact pid m) :
    Prog.wp getSinglepage (fun _ m' => OnTlb fact pid m') (fun _ _ => False)
      (FallsOff fact) m := by
  apply getSinglepage_wp (fallsOff_of_ne (by decide))
  · intro _
    exact hm
  · intro index _ _
    exact hm

theorem ptInsert_onTlb (vaddr paddr : Nat) :
    Keeps (OnTlb fact pid) (FallsOff fact) (ptInsert vaddr paddr) := by
  intro m hm
  simp only [ptInsert, setCoremap, onGblBmp, ↓Prog.wp_bind, ↓Prog.wp_get, ↓Prog.wp_modify,
    ↓Prog.wp_when, ↓Prog.wp_zoom, Bitmap.wp_bitmapMark]
  split
  case isFalse => exact hm
  case isTrue =>
  split
  case isFalse => exact fallsOff_of_ne (by decide)
  case isTrue => exact hm

theorem kmallocTable_onTlb : Keeps (OnTlb fact pid) (FallsOff fact) kmallocTable := by
  intro m hm
  simp only [kmallocTable, ↓Prog.wp_bind]
  refine Prog.wp_mono (getSinglepage_onTlb hm) ?_ (fun _ _ h => h.elim) (fun _ h => h)
  intro r m₁ hm₁
  simp only [setCoremap, ↓Prog.wp_assert, ↓Prog.wp_modify, ↓Prog.wp_get, ↓Prog.wp_pure]
  split
  case isFalse => exact fallsOff_of_ne (by decide)
  case isTrue => exact ptInsert_onTlb _ _ _ hm₁

theorem makeTable_onTlb (a : AsId) (va : Nat) :
    Keeps (OnTlb fact pid) (FallsOff fact) (makeTable a va) := by
  intro m hm
  simp only [makeTable, setAddrspace, ↓Prog.wp_bind, ↓Prog.wp_get, ↓Prog.wp_when,
    ↓Prog.wp_modify]
  split
  case isTrue =>
      exact Prog.wp_mono (kmallocTable_onTlb m hm) (fun _ _ h => h) (fun _ _ h => h)
        (fun _ h => h)
  case isFalse => exact hm

theorem giveFrame_onTlb (a : AsId) (fa temp index : Nat) :
    Keeps (OnTlb fact pid) (FallsOff fact) (giveFrame a fa temp index) := by
  intro m hm
  simp only [giveFrame, setCoremap, ↓Prog.wp_bind, ↓Prog.wp_modify, wp_writePte]
  split
  case isFalse => exact fallsOff_of_ne (by decide)
  case isTrue => exact ptInsert_onTlb fa temp _ hm

theorem frameIndex_onTlb (a : AsId) (va : Nat) :
    Keeps (OnTlb fact pid) (FallsOff fact) (frameIndex a va) := by
  intro m hm
  simp only [frameIndex, ↓Prog.wp_bind, wp_readPte]
  split
  case h_1 => exact fallsOff_of_ne (by decide)
  case h_2 entry _ =>
      simp only [↓Prog.wp_get, ↓Prog.wp_assert, ↓Prog.wp_pure]
      split
      case isFalse => exact fallsOff_of_ne (by decide)
      case isTrue => exact hm

theorem loadPage_onTlb (as : Addrspace) (a : AsId) (va : Nat) :
    Keeps (OnTlb fact pid) (FallsOff fact) (loadPage as a va) := by
  intro m hm
  unfold loadPage
  split
  case h_1 => exact hm
  case h_2 offset filesize _ =>
      simp only [↓Prog.wp_bind]
      refine Prog.wp_mono (frameIndex_onTlb a va m hm) ?_ (fun _ _ h => h) (fun _ h => h)
      intro index m₁ hm₁
      simp only [↓Prog.wp_get, setCoremap, ↓Prog.wp_modify]
      refine Prog.wp_mono (pageRead_wp _ _ _ _ _ _) ?_ ?_ (fun _ h => h.elim)
      · intro _ m₂ hread
        rw [hread]
        exact hm₁
      · intro _ m₂ hread
        rw [hread]
        exact hm₁

/-! Steps that change it. -/

/-- One entry for the page of `va` and the running thread is placed, after
changes elsewhere. -/
def Fills (m : Machine) (va : Nat) (m' : Machine) : Prop :=
  ∃ (m₁ : Machine) (e : TlbEntry), m₁.tlb = m.tlb ∧ m₁.pid = m.pid ∧ m₁.Placed e m' ∧
    e.pid = m.pid ∧ e.vpage = pageFrame va ∧ e.valid = true

theorem refill_fills (hpid : m.pid < 64) (a : AsId) (va : Nat) :
    Prog.wp (refill a (pageFrame va)) (fun _ m' => m.Fills va m')
      (fun _ m' => m'.tlb = m.tlb ∧ m'.pid = m.pid)
      (fun reason => reason = .vmFaultNoReturn → (m.tlb 63).valid = true) m := by
  have hbad (reason : Fault) (hreason : FallsOff (· = m.tlb) reason) :
      reason = .vmFaultNoReturn → (m.tlb 63).valid = true := by
    intro heq
    obtain ⟨tlb, rfl, hlast⟩ := hreason heq
    exact hlast
  simp only [refill, ↓Prog.wp_bind, ↓Prog.wp_get]
  refine Prog.wp_mono (@loadPage_onTlb m.pid (· = m.tlb) _ a _ m ⟨rfl, rfl⟩) ?_
    (fun _ _ h => h) hbad
  intro _ m₁ hm₁
  refine Prog.wp_mono (frameIndex_onTlb a _ m₁ hm₁) ?_ (fun _ _ h => h) hbad
  intro index m₂ hm₂
  have hentry := pid_or_pid va (show m₂.pid < 64 by rw [hm₂.2]; exact hpid)
    ((m₂.coremap index).pa ||| tlbFlags (m.addrspace a) (pageFrame va))
  refine Prog.wp_mono (tlbInsert_placed m₂ _ m₂.asid rfl ?_) ?_ (fun _ _ h => h.elim) ?_
  · intro j hj
    exact absurd hj (Nat.not_lt_zero j)
  · intro _ m' hplaced
    exact ⟨m₂, _, hm₂.1, hm₂.2, hplaced, hentry.1.trans hm₂.2, hentry.2,
      valid_or_flags ..⟩
  · intro reason hreason _
    rw [← hm₂.1]
    exact hreason.2

theorem TlbFact.fills (hfact : TlbFact pid fact) (hm : OnTlb fact pid m)
    (hfills : m.Fills va m') : OnTlb fact pid m' := by
  obtain ⟨m₁, e, htlb, hpid, hplaced, hown, -, hvalid⟩ := hfills
  have hm₁ : fact m₁.tlb := by
    rw [htlb]
    exact hm.1
  have hm' := hfact.placed hm₁ (hown.trans hm.2) hvalid hplaced
  exact ⟨hm'.1, hm'.2.trans (hpid.trans hm.2)⟩

theorem tlbDrop_onTlb (hfact : TlbFact pid fact) (va asid turns i : Nat)
    (hm : OnTlb fact pid m) :
    Prog.Returns (tlbDrop va turns i) (fun _ m' => OnTlb fact pid m')
      (m.withTlb m.tlb asid) := by
  induction turns generalizing i asid with
  | zero => exact hm
  | succ turns ih =>
      simp only [tlbDrop, tlbRead, ↓Prog.wp_bind, ↓Prog.wp_get, ↓Prog.wp_modify,
        ↓Prog.wp_pure, ↓Prog.wp_ite]
      split
      case isTrue => exact ⟨hfact.drop _ i hm.1, hm.2⟩
      case isFalse => exact ih _ _

theorem TlbFact.pagerKeeps_of_refill (hfact : TlbFact pid fact)
    (hrefill : ∀ a va, Keeps (OnTlb fact pid) (FallsOff fact) (refill a (pageFrame va))) :
    PagerKeeps (OnTlb fact pid) (FallsOff fact) (fun _ _ => OnTlb fact pid) (fun _ => True) where
  miss _ _ _ _ := trivial
  panics reason hne := fallsOff_of_ne hne
  growStack a va m hm := by
    apply growStack_wp
    intro base
    exact hm
  makeTable a va _ := makeTable_onTlb a va
  getSinglepage m hm := by
    refine Prog.wp_mono (getSinglepage_onTlb hm) ?_ (fun _ _ h => h.elim) (fun _ h => h)
    intro r m' hm'
    split
    · exact hm'
    · exact hm'
  giveFrame a fa temp index m _ hm := giveFrame_onTlb a fa temp index m hm
  evicted m slot a hm _ := hm
  swappedIn m slot index a hm _ _ _ _ := hm
  lhClear m free hm := hm
  copyOut slot pa m hm := hm
  copyIn slot pa m hm := hm
  tlbDrop va m hm :=
    Prog.wp_mono (tlbDrop_onTlb hfact va m.asid NUM_TLB 0 hm) (fun _ _ h => h)
      (fun _ _ h => h.elim) (fun _ h => h.elim)
  refill := hrefill

theorem TlbFact.pagerKeeps (hfact : TlbFact pid fact) (hpid : pid < 64) :
    PagerKeeps (OnTlb fact pid) (FallsOff fact) (fun _ _ => OnTlb fact pid) (fun _ => True) := by
  apply hfact.pagerKeeps_of_refill
  intro a va m hm
  refine Prog.wp_mono (refill_fills (by rw [hm.2]; exact hpid) a va) ?_ ?_ ?_
  · intro _ m' hfills
    exact hfact.fills hm hfills
  · intro _ m' hsame
    refine ⟨?_, hsame.2.trans hm.2⟩
    rw [hsame.1]
    exact hm.1
  · intro reason hreason heq
    exact ⟨m.tlb, hm.1, hreason heq⟩

end OS161.VM.Machine
