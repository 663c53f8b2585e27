import OS161.VM.FrameOwnership
import OS161.VM.Frames
import OS161.VM.Tlb

namespace OS161.VM.Machine

open OS161.Data
open OS161.Kern

/-! Which slots of the TLB `vm_fault` fills, over any history of faults,
invalidations and flushes. -/

/-- The slot carries a translation for the page and the process. -/
def Carries (tlb : Nat → TlbEntry) (i vpage pid : Nat) : Prop :=
  (tlb i).valid = true ∧ (tlb i).vpage = vpage ∧ (tlb i).pid = pid

/-- The last slot stays empty, for the search to end there. -/
def LastFree (tlb : Nat → TlbEntry) : Prop := (tlb 63).valid = false

/-- No two slots are for the same page of the same process. -/
def Distinct (tlb : Nat → TlbEntry) : Prop :=
  ∀ i < NUM_TLB, ∀ j < NUM_TLB, ∀ vpage pid,
    Carries tlb i vpage pid → Carries tlb j vpage pid → i = j

/-- One call that comes back.  What the rest of the kernel does in between is
left open, but for the frames of the coremap. -/
inductive TlbStep (start frames : Nat) : Machine → Option Nat → Machine → Prop where
  | vmFault {m m' : Machine} (hpid : m.pid < 64) (hmiss : m.translate address = none)
      (hfresh : ∀ i < NUM_TLB, ¬ Carries m.tlb i (pageFrame address) m.pid)
      (hdone : vmFault depth faulttype address m = .ok () m') :
      TlbStep start frames m (some address) m'
  | drop {m m' : Machine} (hdone : tlbDrop va NUM_TLB 0 m = .ok () m') :
      TlbStep start frames m none m'
  | flush {m m' : Machine} (hdone : tlbFlush m = .ok () m') : TlbStep start frames m none m'
  | elsewhere {m m' : Machine} (htlb : m'.tlb = m.tlb)
      (hframed : m.Framed start frames → m'.Framed start frames) :
      TlbStep start frames m none m'

/-- The frames that a fault on the page takes: one for the page where it has
none, and one more where its table is missing. -/
def framesNeeded (m : Machine) (address : Nat) : Nat :=
  match m.tVmspace with
  | none => 0
  | some a =>
      match m.pte a (pageFrame address) with
      | none => 2
      | some entry => if entry.tdiv 2 = 0 then 1 else 0

/-- A step whose fault, if it is one, need not evict a page. -/
def SuppliedStep (start frames : Nat) (m m' : Machine) : Prop :=
  ∃ fault, TlbStep start frames m fault m' ∧
    ∀ address ∈ fault, m.framesNeeded address ≤ m.freeFrames

variable {m m' : Machine} {start frames : Nat} {tlb : Nat → TlbEntry}

/-! One fault without eviction. -/

/-- A frame is free where the page has none. -/
def Supplied (m : Machine) (a : AsId) (fa : Nat) : Prop :=
  ∀ entry, m.pte a fa = some entry → entry.tdiv 2 = 0 → 0 < m.freeFrames

section Supplied

variable (hstart : 0 < start) (hroom : start + frames * PAGE_SIZE ≤ 2 ^ 32)

include hstart hroom

theorem makeTable_supplied (hframed : m.Framed start frames) (a : AsId) (fa : Nat)
    (htable : m.pte a fa = none → 2 ≤ m.freeFrames) (hpage : m.Supplied a fa) :
    Prog.wp (makeTable a fa)
      (fun _ m' => m'.Framed start frames ∧ m.SameMmu m' ∧ m'.Supplied a fa)
      (fun _ _ => True) (fun _ => True) m := by
  cases hentry : m.pte a fa with
  | some entry =>
      rw [makeTable_of_entry (by rw [hentry]; rfl)]
      exact ⟨hframed, ⟨rfl, rfl, rfl, rfl⟩, hpage⟩
  | none =>
      have hfree := htable hentry
      simp only [makeTable, kmallocTable, setAddrspace, ↓Prog.wp_bind, ↓Prog.wp_get,
        ↓Prog.wp_when, ↓Prog.wp_modify]
      split
      case isFalse => exact ⟨hframed, ⟨rfl, rfl, rfl, rfl⟩, hpage⟩
      case isTrue =>
      apply getSinglepage_free hframed hstart (by omega)
      intro temp index hne hlowest hlt htaken
      have hframed₁ : ((m.took index).withNpages index).Framed start frames :=
        (hframed.reframed (reframed_took m index)).reframed
          ⟨rfl, rfl, rfl, fun _ _ h => h, pa_update rfl⟩
      have htaken₁ : Taken start frames temp index ((m.took index).withNpages index) :=
        ⟨htaken.ge, htaken.lt, htaken.temp, htaken.marked⟩
      simp only [↓Prog.wp_assert, if_pos hne, setCoremap, ↓Prog.wp_modify]
      show Prog.wp (ptInsert _ _) _ _ _ ((m.took index).withNpages index)
      rw [htaken₁.ptInsert hroom hframed₁]
      have hframed₂ := htaken₁.inserted hframed₁ (temp + KSEG0)
      refine ⟨hframed₂.reframed ⟨rfl, rfl, rfl, fun _ _ h => h, fun _ => rfl⟩,
        ⟨rfl, rfl, rfl, rfl⟩, ?_⟩
      intro entry _ _
      calc
        0 < (m.took index).freeFrames := by
          rw [freeFrames_took hlowest hlt]
          omega
        _ = _ := (freeFrames_congr rfl).symm

theorem mapPage_supplied {touch : Bool → Nat → Op Nat} {a : AsId} {fa : Nat}
    (hnever : NeverTouches touch a fa) (hframed : m.Framed start frames)
    (hcurrent : m.tVmspace = some a) (hmiss : m.translate fa = none)
    (hpage : m.Supplied a fa) :
    Prog.wp (mapPage touch a fa) (fun _ m' => m.SameMmu m') (fun _ _ => True)
      (fun _ => True) m := by
  cases hentry : m.pte a fa with
  | none =>
      simp only [mapPage, ↓Prog.wp_bind, wp_readPte, hentry]
  | some entry =>
  by_cases hodd : entry.tmod 2 = 1
  · obtain ⟨slot, rfl⟩ := odd_of_tmod hodd
    exact Prog.wp_mono (mapPage_swappedOut hnever ⟨hcurrent, ⟨slot, hentry⟩, hmiss⟩)
      (fun _ _ h => h.elim) (fun _ _ _ => trivial) (fun _ h => h)
  · simp only [mapPage, ↓Prog.wp_bind, wp_readPte, hentry, ↓Prog.wp_ite, if_neg hodd,
      ↓Prog.wp_when, ↓Prog.wp_get]
    split
    case isFalse => exact ⟨rfl, rfl, rfl, rfl⟩
    case isTrue hnew =>
        simp only [getFrame, ↓Prog.wp_bind]
        apply getSinglepage_free hframed hstart (hpage entry hentry hnew)
        intro temp index hne hlowest hlt htaken
        simp only [↓Prog.wp_ite, if_pos hne, ↓Prog.wp_pure, setCoremap, ↓Prog.wp_modify,
          wp_writePte]
        split
        case isFalse => trivial
        case isTrue =>
            have hframed₁ : (((m.took index).withNpages index).setPte a fa
                (index * 2)).Framed start frames :=
              (hframed.reframed (reframed_took m index)).reframed
                ⟨rfl, rfl, rfl, fun _ _ h => h, pa_update rfl⟩
            have htaken₁ : Taken start frames temp index
                (((m.took index).withNpages index).setPte a fa (index * 2)) :=
              ⟨htaken.ge, htaken.lt, htaken.temp, htaken.marked⟩
            show Prog.wp (ptInsert _ _) _ _ _
              (((m.took index).withNpages index).setPte a fa (index * 2))
            rw [htaken₁.ptInsert hroom hframed₁]
            exact ⟨rfl, rfl, rfl, rfl⟩

/-- A fault that need not evict enters one translation. -/
theorem vmFault_fills (hframed : m.Framed start frames) (hpid : m.pid < 64)
    (hmiss : m.translate address = none)
    (hneeded : m.framesNeeded address ≤ m.freeFrames) (depth : Nat) (faulttype : FaultType) :
    Prog.wp (vmFault depth faulttype address) (fun _ m' => m.Fills address m')
      (fun _ _ => True) (fun _ => True) m := by
  cases depth with
  | zero => trivial
  | succ depth =>
  simp only [vmFault, vmFaultWith, ↓Prog.wp_ite, ↓Prog.wp_fail, ↓Prog.wp_panic,
    ↓Prog.wp_bind, ↓Prog.wp_get]
  split
  case isTrue => trivial
  case isFalse =>
  split
  case isTrue => trivial
  case isFalse =>
  split
  case h_1 => trivial
  case h_2 a hcurrent =>
  simp only [↓Prog.wp_ite, ↓Prog.wp_fail, ↓Prog.wp_bind, ↓Prog.wp_get]
  split
  case isTrue => trivial
  case isFalse =>
  apply growStack_wp
  intro base
  apply checkSetup_wp _ trivial
  simp only [framesNeeded, hcurrent] at hneeded
  have hmoved : (m.withStackvbase a base).Framed start frames :=
    hframed.reframed ⟨rfl, rfl, rfl, fun _ _ h => h, fun _ => rfl⟩
  have htable : (m.withStackvbase a base).pte a (pageFrame address) = none →
      2 ≤ (m.withStackvbase a base).freeFrames := by
    intro hnone
    rw [pte_withStackvbase] at hnone
    rw [hnone] at hneeded
    exact hneeded
  have hpage : (m.withStackvbase a base).Supplied a (pageFrame address) := by
    intro entry hentry hnew
    rw [pte_withStackvbase] at hentry
    simp only [hentry, if_pos hnew] at hneeded
    exact hneeded
  refine Prog.wp_mono (makeTable_supplied hstart hroom hmoved a _ htable hpage) ?_
    (fun _ _ h => h) (fun _ h => h)
  rintro _ m₁ ⟨hframed₁, hsame₁, hpage₁⟩
  have hmiss₁ : m₁.translate (pageFrame address) = none := by
    rw [hsame₁.translate]
    exact translate_pageFrame hmiss
  refine Prog.wp_mono (mapPage_supplied hstart hroom (vmFault_neverTouches depth address)
    hframed₁ (hsame₁.tVmspace.trans hcurrent) hmiss₁ hpage₁) ?_ (fun _ _ h => h)
    (fun _ h => h)
  intro _ m₂ hsame₂
  have htlb : m₂.tlb = m.tlb := hsame₂.tlb.trans hsame₁.tlb
  have hrun : m₂.pid = m.pid := hsame₂.pid.trans hsame₁.pid
  refine Prog.wp_mono (refill_fills (by rw [hrun]; exact hpid) a address) ?_
    (fun _ _ _ => trivial) (fun _ _ => trivial)
  rintro _ m' ⟨m₃, e, htlb₃, hpid₃, hplaced, hown, hvpage, hvalid⟩
  exact ⟨m₃, e, htlb₃.trans htlb, hpid₃.trans hrun, hplaced, hown.trans hrun, hvpage, hvalid⟩

end Supplied

/-! The slots after one change. -/

theorem carries_update_invalid {vpage pid : Nat} (i : Nat)
    (hcarries : Carries (Function.update tlb i (.invalid i)) j vpage pid) :
    Carries tlb j vpage pid := by
  by_cases heq : j = i
  · rw [heq, Carries, Function.update_self, valid_invalid] at hcarries
    exact absurd hcarries.1 (by decide)
  · rwa [Carries, Function.update_of_ne heq] at hcarries

theorem lastFree_tlbFact (pid : Nat) : TlbFact pid LastFree where
  empty tlb hall := by
    rw [LastFree, hall 63 (by decide), valid_invalid]
  drop tlb i hlast := by
    by_contra hvalid
    rw [LastFree, Bool.not_eq_false] at hvalid
    have hcarries := carries_update_invalid i ⟨hvalid, rfl, rfl⟩
    rw [LastFree, hcarries.1] at hlast
    cases hlast
  place tlb i e hi _ _ _ hlast := by
    rw [LastFree, Function.update_of_ne (by omega)]
    exact hlast

theorem distinct_of_empty (hall : ∀ i < NUM_TLB, (tlb i).valid = false) : Distinct tlb := by
  intro i hi j hj vpage pid hcarries
  rw [Carries, hall i hi] at hcarries
  cases hcarries.1

theorem Distinct.drop (hdistinct : Distinct tlb) (i : Nat) :
    Distinct (Function.update tlb i (.invalid i)) := by
  intro j hj k hk vpage pid hcarries hcarries'
  exact hdistinct j hj k hk vpage pid (carries_update_invalid i hcarries)
    (carries_update_invalid i hcarries')

/-- A new entry is no second one where its page had none. -/
theorem Distinct.place (hdistinct : Distinct tlb) {e : TlbEntry}
    (hfresh : ∀ i < NUM_TLB, ¬ Carries tlb i e.vpage e.pid) (i : Nat) :
    Distinct (Function.update tlb i e) := by
  intro j hj k hk vpage pid hcarries hcarries'
  by_cases hji : j = i
  · rw [Carries, hji, Function.update_self] at hcarries
    by_cases hki : k = i
    · rw [hji, hki]
    · rw [Carries, Function.update_of_ne hki, ← hcarries.2.1, ← hcarries.2.2] at hcarries'
      exact absurd hcarries' (hfresh k hk)
  · rw [Carries, Function.update_of_ne hji] at hcarries
    by_cases hki : k = i
    · rw [Carries, hki, Function.update_self] at hcarries'
      rw [← hcarries'.2.1, ← hcarries'.2.2] at hcarries
      exact absurd hcarries (hfresh j hj)
    · rw [Carries, Function.update_of_ne hki] at hcarries'
      exact hdistinct j hj k hk vpage pid hcarries hcarries'

theorem Distinct.fills (hdistinct : Distinct m.tlb)
    (hfresh : ∀ i < NUM_TLB, ¬ Carries m.tlb i (pageFrame address) m.pid)
    (hfills : m.Fills address m') : Distinct m'.tlb := by
  obtain ⟨m₁, e, htlb, -, hplaced, hown, hvpage, -⟩ := hfills
  rw [← htlb] at hdistinct hfresh
  rw [← hvpage, ← hown] at hfresh
  cases hplaced with
  | first => exact hdistinct.place hfresh _
  | flushed hall =>
      apply Distinct.place
      · apply distinct_of_empty
        intro i hi
        rw [hall i hi, valid_invalid]
      · intro i hi hcarries
        rw [Carries, hall i hi, valid_invalid] at hcarries
        cases hcarries.1

theorem tlbDrop_distinct (hdistinct : Distinct m.tlb) (va asid turns i : Nat) :
    Prog.Returns (tlbDrop va turns i) (fun _ m' => Distinct m'.tlb)
      (m.withTlb m.tlb asid) := by
  induction turns generalizing i asid with
  | zero => exact hdistinct
  | succ turns ih =>
      simp only [tlbDrop, tlbRead, ↓Prog.wp_bind, ↓Prog.wp_get, ↓Prog.wp_modify,
        ↓Prog.wp_pure, ↓Prog.wp_ite]
      split
      case isTrue => exact hdistinct.drop i
      case isFalse => exact ih _ _

/-! Runs. -/

theorem TlbStep.lastFree (hstep : TlbStep start frames m fault m') (hlast : LastFree m.tlb) :
    LastFree m'.tlb := by
  cases hstep with
  | vmFault hpid hmiss hfresh hdone =>
      have hkeeps := (lastFree_tlbFact m.pid).pagerKeeps hpid
      exact ((hkeeps.vmFault _ _ trivial m ⟨hlast, rfl⟩).post_of_ok hdone).1
  | drop hdone =>
      exact ((tlbDrop_onTlb (lastFree_tlbFact m.pid) _ m.asid NUM_TLB 0
        ⟨hlast, rfl⟩).post_of_ok hdone).1
  | flush hdone =>
      obtain ⟨tlb, rfl, hall⟩ := (tlbFlush_returns m).post_of_ok hdone
      exact (lastFree_tlbFact m.pid).empty _ hall
  | elsewhere htlb _ =>
      rw [htlb]
      exact hlast

/-- With the last slot free the search of `vm_fault` ends. -/
theorem LastFree.vmFault_returns (hlast : LastFree m.tlb) (hpid : m.pid < 64) (depth : Nat)
    (faulttype : FaultType) (address : Nat) :
    vmFault depth faulttype address m ≠ .panic .vmFaultNoReturn := by
  intro hpanic
  have hkeeps := (lastFree_tlbFact m.pid).pagerKeeps hpid
  have hfault := @PagerKeeps.vmFault _ _ _ _ address hkeeps depth faulttype trivial m
    ⟨hlast, rfl⟩
  rw [Prog.wp, hpanic] at hfault
  obtain ⟨tlb, hfree, hvalid⟩ := hfault rfl
  rw [LastFree, hvalid] at hfree
  cases hfree

/-- What a run whose faults find frames keeps. -/
structure SlotsInv (start frames : Nat) (m : Machine) : Prop where
  framed : m.Framed start frames
  distinct : Distinct m.tlb

theorem SuppliedStep.keeps (hstart : 0 < start)
    (hroom : start + frames * PAGE_SIZE ≤ 2 ^ 32) (hstep : SuppliedStep start frames m m')
    (hinv : m.SlotsInv start frames) : m'.SlotsInv start frames := by
  obtain ⟨fault, hstep, hneeded⟩ := hstep
  have hkeeps := framed_pagerKeeps hroom
  cases hstep with
  | @vmFault address depth faulttype _ _ hpid hmiss hfresh hdone =>
      have hfills := vmFault_fills hstart hroom hinv.framed hpid hmiss (hneeded _ rfl) depth
        faulttype
      exact ⟨(hkeeps.vmFault _ _ trivial m hinv.framed).post_of_ok hdone,
        hinv.distinct.fills hfresh (hfills.post_of_ok hdone)⟩
  | drop hdone =>
      exact ⟨(hkeeps.tlbDrop _ m hinv.framed).post_of_ok hdone,
        (tlbDrop_distinct hinv.distinct _ m.asid NUM_TLB 0).post_of_ok hdone⟩
  | flush hdone =>
      obtain ⟨tlb, rfl, hall⟩ := (tlbFlush_returns m).post_of_ok hdone
      refine ⟨hinv.framed.reframed (reframed_withTlb m tlb 0), distinct_of_empty ?_⟩
      intro i hi
      show (tlb i).valid = false
      rw [hall i hi, valid_invalid]
  | elsewhere htlb hframed =>
      refine ⟨hframed hinv.framed, ?_⟩
      rw [htlb]
      exact hinv.distinct

/-- The last slot stays free in every run, and no translation is entered twice
in a run whose faults find the frames they need. -/
theorem tlb_slot_discipline (hstart : 0 < start)
    (hroom : start + frames * PAGE_SIZE ≤ 2 ^ 32) (hframed : m.Framed start frames)
    (hempty : ∀ i < NUM_TLB, (m.tlb i).valid = false) :
    (∀ m', Relation.ReflTransGen (fun m m' => ∃ fault, TlbStep start frames m fault m') m m' →
      LastFree m'.tlb ∧ ∀ depth faulttype address, m'.pid < 64 →
        vmFault depth faulttype address m' ≠ .panic .vmFaultNoReturn) ∧
    (∀ m', Relation.ReflTransGen (SuppliedStep start frames) m m' → Distinct m'.tlb) := by
  constructor
  · intro m' hrun
    have hlast : LastFree m'.tlb := invariant_of_steps (fun m : Machine => LastFree m.tlb)
      hrun (hempty 63 (by decide)) (fun _ _ hbefore hstep => hstep.elim fun _ hstep => hstep.lastFree hbefore)
    refine ⟨hlast, ?_⟩
    intro depth faulttype address hpid
    exact hlast.vmFault_returns hpid depth faulttype address
  · intro m' hrun
    have hinv := invariant_of_steps (SlotsInv start frames) hrun
      ⟨hframed, distinct_of_empty hempty⟩
      (fun _ _ hbefore hstep => hstep.keeps hstart hroom hbefore)
    exact hinv.distinct

private theorem booted_framed : booted.Framed 0x43000 6 := by
  have hok : (coremapInit 0x40000 0x49000 powerOn).returned = some () := by
    decide
  have hboot := @coremapInit_framed powerOn 0x40000 0x49000 (by decide) (by decide)
  exact hboot.post_of_ok (Result.eq_ok_of_returned powerOn hok)

private theorem booted_empty : ∀ i < NUM_TLB, (booted.tlb i).valid = false := by
  decide

instance (tlb : Nat → TlbEntry) (i vpage pid : Nat) : Decidable (Carries tlb i vpage pid) :=
  inferInstanceAs (Decidable (_ ∧ _ ∧ _))

private theorem filling_first : TlbStep 0x43000 6 booted (some 0x20000000) afterFirst := by
  have hok : (vmFault 3 .VM_FAULT_WRITE 0x20000000 booted).returned = some () := by
    decide
  exact .vmFault (by decide) (by decide) (by decide)
    (Result.eq_ok_of_returned booted hok)

private theorem filling_second : TlbStep 0x43000 6 afterFirst (some 0x20001000) afterSecond := by
  have hok : (vmFault 3 .VM_FAULT_WRITE 0x20001000 afterFirst).returned = some () := by
    decide
  exact .vmFault (by decide) (by decide) (by decide)
    (Result.eq_ok_of_returned afterFirst hok)

/-- Two faults that find free frames fill two slots. -/
theorem tlb_slot_discipline_two_faults :
    (afterSecond.tlb 0).valid = true ∧ (afterSecond.tlb 1).valid = true ∧
    LastFree afterSecond.tlb ∧ Distinct afterSecond.tlb := by
  have hdiscipline := tlb_slot_discipline (by decide) (by decide) booted_framed booted_empty
  have hfirst : SuppliedStep 0x43000 6 booted afterFirst :=
    ⟨_, filling_first, by rintro _ ⟨rfl⟩; decide⟩
  have hsecond : SuppliedStep 0x43000 6 afterFirst afterSecond :=
    ⟨_, filling_second, by rintro _ ⟨rfl⟩; decide⟩
  exact ⟨by decide, by decide,
    (hdiscipline.1 _ (.tail (.single ⟨_, filling_first⟩) ⟨_, filling_second⟩)).1,
    hdiscipline.2 _ (.tail (.single hfirst) hsecond)⟩

private def afterThird : Machine :=
  (vmFault 6 .VM_FAULT_WRITE 0x20002000 afterSecond).stateD afterSecond

/-- The third fault finds no frame.  It evicts a page by copying its own, which
faults inside the handler and is entered there; the handler then enters it
again. -/
theorem eviction_enters_page_twice :
    booted.Framed 0x43000 6 ∧ (∀ i < NUM_TLB, (booted.tlb i).valid = false) ∧
    Relation.ReflTransGen (fun m m' => ∃ fault, TlbStep 0x43000 6 m fault m')
      booted afterThird ∧
    ¬ Distinct afterThird.tlb := by
  have hok : (vmFault 6 .VM_FAULT_WRITE 0x20002000 afterSecond).returned = some () := by
    decide +kernel
  have hthird : TlbStep 0x43000 6 afterSecond (some 0x20002000) afterThird :=
    .vmFault (by decide) (by decide) (by decide)
      (Result.eq_ok_of_returned afterSecond hok)
  have hrun : Relation.ReflTransGen (fun m m' => ∃ fault, TlbStep 0x43000 6 m fault m')
      booted afterSecond := .tail (.single ⟨_, filling_first⟩) ⟨_, filling_second⟩
  refine ⟨booted_framed, booted_empty, .tail hrun ⟨_, hthird⟩, ?_⟩
  intro hdistinct
  have heq := hdistinct 0 (by decide) 1 (by decide) 0x20002000 2 (by decide +kernel)
    (by decide +kernel)
  cases heq

end OS161.VM.Machine
