import OS161.VM.MissRule
import OS161.VM.Spaces
import OS161.VM.SwapRoundTrip

namespace OS161.VM

open OS161.Data
open OS161.Kern
open OS161.Lib

/-! Where the heap and the stack of an address space lie, and what a fault does
to that. -/

structure Layout where
  heapbottom : Nat
  heaptop : Nat
  stackvbase : Nat
  deriving DecidableEq, Repr

def Addrspace.layout (as : Addrspace) : Layout where
  heapbottom := as.heapbottom
  heaptop := as.heaptop
  stackvbase := as.asStackvbase

/-- The layout after a fault on the page. -/
def Layout.grown (l : Layout) (fa : Nat) : Layout :=
  if (fa + PAGE_SIZE) % 2 ^ 32 ≥ l.stackvbase then { l with stackvbase := fa } else l

theorem Layout.grown_grown (l : Layout) (hfa : fa + PAGE_SIZE < 2 ^ 32) :
    (l.grown fa).grown fa = l.grown fa := by
  have hup : (fa + PAGE_SIZE) % 2 ^ 32 ≥ fa := by
    rw [Nat.mod_eq_of_lt hfa]
    omega
  by_cases hgrow : (fa + PAGE_SIZE) % 2 ^ 32 ≥ l.stackvbase
  · simp only [grown, if_pos hgrow, if_pos hup]
  · simp only [grown, if_neg hgrow]

namespace Machine

/-- The process runs, and this is its layout. -/
def LaidOut (a : AsId) (l : Layout) (m : Machine) : Prop :=
  m.tVmspace = some a ∧ (m.addrspace a).layout = l

section Preserved

variable {a : AsId} {l : Layout} {m : Machine} {touch : Bool → Nat → Op Nat}

theorem looksAt_laidOut (a : AsId) (l : Layout) : LooksAt Addrspace.layout (LaidOut a l) where
  congr _ _ hview hcurrent hlaid := ⟨hcurrent.trans hlaid.1, (hview a).trans hlaid.2⟩
  tables _ _ := rfl

/-- An access to the page keeps the layout, whatever faults it takes. -/
abbrev TouchKeeps (touch : Bool → Nat → Op Nat) (a : AsId) (l : Layout) (fa : Nat) : Prop :=
  ∀ write, Prog.Preserves (LaidOut a l) (touch write fa)

/-- A page that is swapped out does not come back, so only a page that was never
mapped gets a frame here. -/
theorem mapPage_laidOut (htouch : TouchKeeps touch a l fa) (hnever : NeverTouches touch a fa)
    (hlaid : LaidOut a l m) (hmiss : m.translate fa = none) :
    (mapPage touch a fa).wp (fun _ m' => LaidOut a l m') (fun _ _ => True) (fun _ => True) m := by
  cases hpte : m.pte a fa with
  | none =>
      simp only [mapPage, ↓Prog.wp_bind, wp_readPte, hpte]
  | some entry =>
      by_cases hodd : entry.tmod 2 = 1
      · obtain ⟨slot, rfl⟩ := odd_of_tmod hodd
        have hout : m.SwappedOut a fa := ⟨hlaid.1, ⟨slot, hpte⟩, hmiss⟩
        exact Prog.wp_mono (mapPage_swappedOut hnever hout) (fun _ _ h => h.elim)
          (fun _ _ _ => trivial) (fun _ h => h)
      · simp only [mapPage, ↓Prog.wp_bind, wp_readPte, hpte, if_neg hodd]
        exact (Prog.Preserves.when _ (.bind .get fun _ =>
          (looksAt_laidOut a l).newPage htouch a _)).wp hlaid

theorem growStack_laidOut (hlaid : LaidOut a l m) (fa : Nat) :
    (growStack a fa).Returns (fun _ m' => LaidOut a (l.grown fa) m' ∧ m.SameMmu m') m := by
  have hbase : (m.addrspace a).asStackvbase = l.stackvbase := by
    rw [← hlaid.2]
    rfl
  simp only [growStack, setAddrspace, Prog.Returns, ↓Prog.wp_bind, ↓Prog.wp_get,
    ↓Prog.wp_when, ↓Prog.wp_modify, hbase]
  split
  case isTrue hgrow =>
    refine ⟨⟨hlaid.1, ?_⟩, rfl, rfl, rfl, rfl⟩
    rw [Layout.grown, if_pos hgrow, ← hlaid.2]
    simp [Addrspace.layout]
  case isFalse hgrow =>
    rw [Layout.grown, if_neg hgrow]
    exact ⟨hlaid, rfl, rfl, rfl, rfl⟩

theorem vmFaultWith_laidOut (hnever : NeverTouches touch a (pageFrame address))
    (htouch : TouchKeeps touch a (l.grown (pageFrame address)) (pageFrame address))
    (hlaid : LaidOut a l m) (hmiss : m.translate address = none) (faulttype : FaultType) :
    (vmFaultWith touch faulttype address).wp
      (fun _ m' => LaidOut a (l.grown (pageFrame address)) m') (fun _ _ => True)
      (fun _ => True) m := by
  simp only [vmFaultWith, ↓Prog.wp_ite, ↓Prog.wp_fail, ↓Prog.wp_panic, ↓Prog.wp_bind,
    ↓Prog.wp_get, hlaid.1]
  split
  case isTrue => trivial
  case isFalse =>
  split
  case isTrue => trivial
  case isFalse =>
  split
  case isTrue => trivial
  case isFalse =>
  refine Prog.wp_mono (growStack_laidOut hlaid (pageFrame address)) ?_ (fun _ _ h => h.elim)
    (fun _ h => h.elim)
  rintro _ m₁ ⟨hlaid₁, hsame₁⟩
  apply checkSetup_wp _ trivial
  refine Prog.wp_mono (Prog.wp_and (((looksAt_laidOut a _).makeTable a _).wp hlaid₁)
    (makeTable_sameMmu m₁ a _)) ?_ (fun _ _ h => h.1) (fun _ h => h.1)
  rintro _ m₂ ⟨hlaid₂, hsame₂⟩
  have hmiss₂ : m₂.translate (pageFrame address) = none := by
    rw [hsame₂.translate, hsame₁.translate]
    exact translate_pageFrame hmiss
  refine Prog.wp_mono (mapPage_laidOut htouch hnever hlaid₂ hmiss₂) ?_ (fun _ _ h => h)
    (fun _ h => h)
  intro _ m₃ hlaid₃
  exact ((looksAt_laidOut a _).refill a _).wp hlaid₃

theorem access_keeps {fault : Nat → Op Unit}
    (hfault : ∀ m, LaidOut a l m → m.translate fa = none →
      (fault fa).wp (fun _ m' => LaidOut a l m') (fun _ _ => True) (fun _ => True) m)
    (turns : Nat) : TouchKeeps (access fault turns) a l fa := by
  intro write
  refine .of_wp fun m hlaid => ?_
  induction turns generalizing m with
  | zero => trivial
  | succ turns ih =>
      simp only [access, ↓Prog.wp_bind, ↓Prog.wp_get]
      split
      case h_1 pa writable hhit =>
          simp only [↓Prog.wp_bind, ↓Prog.wp_assert, ↓Prog.wp_pure]
          split
          · exact hlaid
          · trivial
      case h_2 hmiss =>
          simp only [↓Prog.wp_bind, ↓Prog.wp_attempt]
          refine Prog.wp_mono (hfault m hlaid hmiss) ?_ (fun _ _ _ => trivial) (fun _ h => h)
          intro _ m' hlaid'
          exact ih m' hlaid'

/-- A fault that is handled moves the base of the stack, and nothing else of the
layout.  The faults that nest inside it are on the same page and move it to the
same place. -/
theorem vmFault_laidOut (hlaid : LaidOut a l m) (hmiss : m.translate address = none)
    (hfa : pageFrame address + PAGE_SIZE < 2 ^ 32) (depth : Nat) (faulttype : FaultType) :
    (vmFault depth faulttype address).wp
      (fun _ m' => LaidOut a (l.grown (pageFrame address)) m') (fun _ _ => True)
      (fun _ => True) m := by
  induction depth generalizing m l address faulttype with
  | zero => trivial
  | succ depth ih =>
      refine vmFaultWith_laidOut (vmFault_neverTouches depth address)
        (access_keeps ?_ (depth + 1)) hlaid hmiss faulttype
      intro m' hlaid' hmiss'
      have hagain := @ih (l.grown (pageFrame address)) m' (pageFrame address) hlaid' hmiss'
        (by rw [pageFrame_idem]; exact hfa) .VM_FAULT_READ
      rw [pageFrame_idem, Layout.grown_grown l hfa] at hagain
      exact hagain

end Preserved

end Machine

end OS161.VM
