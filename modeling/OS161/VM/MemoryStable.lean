import OS161.VM.Refill

namespace OS161.VM.Machine

open OS161.Data
open OS161.Kern
open OS161.Lib

/-! A program's memory along its stores, the flushes and invalidations of the
TLB, and the faults that refill it. -/

inductive UserEvent where
  | store (va : Nat) (byte : Byte)
  | fault (faulttype : FaultType) (va : Nat)
  | flush
  | invalidate (i : Nat)
  | activate (garbage : TlbEntry)

/-- One event of a thread of the address space `a`.  A store goes through the
TLB; a fault is on a resident page that the TLB does not map. -/
inductive UserStep (a : AsId) : Machine → UserEvent → Machine → Prop where
  | store (huser : va < KSEG0) (hhit : translate m va = some (pa, true)) :
      UserStep a m (.store va byte) (m.withRam (Function.update m.ram pa byte))
  | fault (hmiss : translate m va = none) (hframe : m.InFrame a (pageFrame va) frame)
      (hdone : vmFault depth faulttype va m = .ok () m') :
      UserStep a m (.fault faulttype va) m'
  | faultError (hmiss : translate m va = none)
      (hframe : m.InFrame a (pageFrame va) frame)
      (hdone : vmFault depth faulttype va m = .error code m') :
      UserStep a m (.fault faulttype va) m'
  | flush (hdone : tlbFlush m = .ok () m') : UserStep a m .flush m'
  | invalidate (hdone : tlbWrite (.invalid i) i m = .ok () m') :
      UserStep a m (.invalidate i) m'
  | activate (hdone : asActivate garbage m = .ok () m') :
      UserStep a m (.activate garbage) m'

/-- The fault does not read the page from the executable, or what it reads is
in the frame already. -/
def FileKept (a : AsId) (m : Machine) : UserEvent → Prop
  | .fault _ va => ∀ frame o byte, m.InFrame a (pageFrame va) frame →
      m.fileImage a (pageFrame va) o = some byte →
      m.ram ((m.coremap frame).pa + o) = byte
  | _ => True

def storeTo (m : Machine) (a : AsId) (ram : Nat → Byte) : UserEvent → Nat → Byte
  | .store va byte => Function.update ram (m.home a va) byte
  | _ => ram

/-- Memory after the stores among the events, each at the place where the page
tables of `m` put it. -/
def replay (m : Machine) (a : AsId) (events : List UserEvent) : Nat → Byte :=
  events.foldl (m.storeTo a) m.ram

def load (m : Machine) (va : Nat) : Option Byte :=
  (m.translate va).map fun hit => m.ram hit.1

variable {m m₀ m' : Machine} {a : AsId} {va : Nat} {events : List UserEvent}

theorem overlay_eq_self_iff {ram : Nat → Byte} :
    overlay ram pa image = ram ↔ ∀ o byte, image o = some byte → ram (pa + o) = byte := by
  constructor
  · intro hsame o byte himage
    have h := congrFun hsame (pa + o)
    simp only [overlay, Nat.le_add_right, if_true, Nat.add_sub_cancel_left, himage] at h
    exact h.symm
  · intro hkept
    funext x
    unfold overlay
    split
    case isTrue hle =>
        cases himage : image (x - pa) with
        | none => rfl
        | some byte =>
            have h := hkept _ byte himage
            rw [Nat.add_sub_cancel' hle] at h
            exact h.symm
    case isFalse => rfl

/-- What holds between the events of a run that started at `m₀`. -/
structure Stable (m₀ : Machine) (a : AsId) (events : List UserEvent) (m : Machine) :
    Prop where
  rest : SameRest m₀ m
  coherent : m.Coherent a
  ram : m.ram = m₀.replay a events

theorem replay_append (m : Machine) (a : AsId) (events : List UserEvent)
    (event : UserEvent) :
    m.replay a (events ++ [event]) = m.storeTo a (m.replay a events) event := by
  simp [replay, List.foldl_append]

/-- An event that stores nothing. -/
theorem Stable.quiet (hstable : Stable m₀ a events m)
    (hevent : ∀ ram, m₀.storeTo a ram event = ram) (hrest : SameRest m m')
    (hcoherent : m'.Coherent a) (hram : m'.ram = m.ram) :
    Stable m₀ a (events ++ [event]) m' := by
  refine ⟨hstable.rest.trans hrest, hcoherent, ?_⟩
  rw [replay_append, hevent, hram, hstable.ram]

/-- What a run needs of the state it starts from. -/
structure Started (m : Machine) (a : AsId) : Prop where
  current : m.tVmspace = some a
  pid : m.pid < 64
  aligned : ∀ va frame, m.InFrame a va frame → (m.coremap frame).pa % PAGE_SIZE = 0
  coherent : m.Coherent a

section Step

/-- Only the TLB changed. -/
theorem SameRest.withTlb (m : Machine) (tlb : Nat → TlbEntry) (asid : Nat) :
    SameRest m (m.withTlb tlb asid) :=
  ⟨rfl, rfl, fun _ _ => rfl, fun _ => rfl⟩

theorem sameRest_filled (m : Machine) (a : AsId) (base fa frame : Nat) :
    SameRest m ((m.withStackvbase a base).loaded a fa frame) :=
  have hmoved : SameRest m (m.withStackvbase a base) :=
    ⟨rfl, rfl, pte_withStackvbase m a base, fun _ => rfl⟩
  hmoved.trans (sameRest_loaded (m.withStackvbase a base) a fa frame)

theorem ram_filled {fa frame : Nat} (base : Nat)
    (hkept : ∀ o byte, m.fileImage a fa o = some byte →
      m.ram ((m.coremap frame).pa + o) = byte) :
    ((m.withStackvbase a base).loaded a fa frame).ram = m.ram := by
  rw [ram_loaded, fileImage_withStackvbase]
  exact overlay_eq_self_iff.mpr hkept

theorem coherent_filled {fa frame : Nat} (hcoherent : m.Coherent a) (base : Nat) :
    ((m.withStackvbase a base).loaded a fa frame).Coherent a := by
  obtain ⟨htlb, hasid⟩ := mmu_loaded (m.withStackvbase a base) a fa frame
  have hrest := sameRest_filled m a base fa frame
  apply hcoherent.of_slots hrest
  · rw [hasid, hrest.pid]
    exact hcoherent.asid
  · intro i _
    left
    rw [htlb]
    rfl

theorem coherent_entered {fa frame : Nat} (hcoherent : m.Coherent a) (hpid : m.pid < 64)
    (hfa : fa % PAGE_SIZE = 0) (hframe : m.InFrame a fa frame)
    (hpa : (m.coremap frame).pa % PAGE_SIZE = 0)
    (hentered : Entered ((m.withStackvbase a base).loaded a fa frame)
      (m.refillEntry a fa frame) m') : m'.Coherent a := by
  have hentry := @refillEntry_for m a fa frame hpid hfa hpa
  have hrest := sameRest_filled m a base fa frame
  obtain ⟨⟨tlb, rfl⟩, hslots⟩ := hentered
  apply hcoherent.of_slots (hrest.trans (SameRest.withTlb _ tlb _))
  · right
    exact hentry.pid.trans hrest.pid.symm
  · intro i hi
    rcases hslots i hi with hnew | hold | hinvalid
    · right
      right
      exact ⟨fa, frame, hframe, hnew ▸ hentry⟩
    · left
      rw [hold, (mmu_loaded (m.withStackvbase a base) a fa frame).1]
      rfl
    · exact Or.inr (Or.inl hinvalid)

theorem coherent_flushed (hcoherent : m.Coherent a) (tlb : Nat → TlbEntry)
    (hall : ∀ i < NUM_TLB, tlb i = .invalid i) : (m.withTlb tlb 0).Coherent a :=
  hcoherent.of_slots (SameRest.withTlb m tlb 0) (Or.inl rfl)
    (fun i hi => Or.inr (Or.inl (hall i hi)))

theorem asActivate_wp (hcoherent : m.Coherent a) (garbage : TlbEntry) :
    Prog.Returns (asActivate garbage)
      (fun _ m' => ∃ tlb asid, m' = m.withTlb tlb asid ∧ m'.Coherent a) m := by
  -- Reading slot 0 loads its PID; a PID of another thread is flushed with the rest.
  have hflush (asid : Nat) : Prog.Returns tlbFlush
      (fun _ m' => ∃ tlb asid, m' = m.withTlb tlb asid ∧ m'.Coherent a)
      (m.withTlb m.tlb asid) := by
    refine (tlbFlush_returns _).mono ?_
    rintro _ m' ⟨tlb, rfl, hall⟩
    exact ⟨tlb, 0, rfl, coherent_flushed hcoherent tlb hall⟩
  simp only [asActivate, ↓Prog.wp_bind, ↓Prog.wp_get, ↓Prog.wp_ite, tlbRead,
    ↓Prog.wp_modify, ↓Prog.wp_pure, ↓Prog.wp_when]
  split
  case isTrue =>
      split
      case isTrue => exact hflush _
      case isFalse hkeep =>
          refine ⟨m.tlb, (m.tlb 0).pid, rfl, ?_⟩
          apply hcoherent.of_slots (SameRest.withTlb m m.tlb _)
          · by_cases hpid : (m.tlb 0).pid = m.pid
            · exact Or.inr hpid
            · have helo : (m.tlb 0).elo = 0 := by
                by_contra hne
                exact hkeep ⟨hne, hpid⟩
              apply hcoherent.stale 0 (by decide)
              simp [TlbEntry.valid, helo]
          · exact fun _ _ => Or.inl rfl
  case isFalse =>
      split
      case isTrue => exact hflush m.asid
      case isFalse => exact ⟨m.tlb, m.asid, rfl, hcoherent⟩

end Step

theorem UserStep.keeps (hstart : m₀.Started a) (hstable : Stable m₀ a events m)
    (hkept : FileKept a m event) (hstep : UserStep a m event m') :
    Stable m₀ a (events ++ [event]) m' := by
  have hrest := hstable.rest
  have hcoherent := hstable.coherent
  have hcurrent : m.tVmspace = some a := hrest.current.trans hstart.current
  have hpid : m.pid < 64 := by
    rw [hrest.pid]
    exact hstart.pid
  cases hstep with
  | @store va _ pa byte huser hhit =>
      obtain ⟨rfl, -⟩ := hcoherent.translate huser hhit
      refine ⟨hrest.trans ⟨rfl, rfl, fun _ _ => rfl, fun _ => rfl⟩, ?_, ?_⟩
      · exact hcoherent.of_slots ⟨rfl, rfl, fun _ _ => rfl, fun _ => rfl⟩ hcoherent.asid
          (fun _ _ => Or.inl rfl)
      · rw [replay_append, ← hstable.ram, storeTo, hrest.home]
        rfl
  | @fault va _ frame depth faulttype _ hmiss hframe hdone =>
      obtain ⟨base, hentered⟩ :=
        (vmFault_inFrame hcurrent hframe depth faulttype).post_of_ok hdone
      have hpa : (m.coremap frame).pa % PAGE_SIZE = 0 := by
        rw [hrest.pa]
        exact hstart.aligned _ frame ⟨hframe.ne_zero,
          (hrest.pte a _).symm.trans hframe.entry⟩
      obtain ⟨tlb, hsame⟩ := hentered.same
      apply hstable.quiet (fun _ => rfl)
      · rw [hsame]
        exact (sameRest_filled m a base _ frame).trans (SameRest.withTlb _ tlb _)
      · exact coherent_entered hcoherent hpid (by simp [pageFrame]) hframe hpa hentered
      · rw [hsame]
        exact ram_filled base (fun o byte => hkept frame o byte hframe)
  | @faultError va _ frame depth faulttype _ _ hmiss hframe hdone =>
      rcases (vmFault_inFrame hcurrent hframe depth faulttype).fails_of_error hdone with
        rfl | ⟨base, rfl⟩
      · exact hstable.quiet (fun _ => rfl) (SameRest.refl _) hcoherent rfl
      · exact hstable.quiet (fun _ => rfl) (sameRest_filled m a base _ frame)
          (coherent_filled hcoherent base)
          (ram_filled base (fun o byte => hkept frame o byte hframe))
  | flush hdone =>
      obtain ⟨tlb, rfl, hall⟩ := (tlbFlush_returns m).post_of_ok hdone
      exact hstable.quiet (fun _ => rfl) (SameRest.withTlb m tlb 0)
        (coherent_flushed hcoherent tlb hall) rfl
  | @invalidate i _ _ hdone =>
      obtain rfl : m.withTlb (Function.update m.tlb i (.invalid i)) (TlbEntry.invalid i).pid =
          m' := by
        cases hdone
        rfl
      refine hstable.quiet (fun _ => rfl) (SameRest.withTlb ..) ?_ rfl
      apply hcoherent.of_slots (SameRest.withTlb ..) (Or.inl (pid_invalid i))
      intro j _
      by_cases heq : j = i
      · right
        left
        simp [withTlb, heq]
      · left
        exact Function.update_of_ne heq ..
  | @activate garbage _ _ hdone =>
      obtain ⟨tlb, asid, rfl, hcoherent'⟩ := (asActivate_wp hcoherent garbage).post_of_ok hdone
      exact hstable.quiet (fun _ => rfl) (SameRest.withTlb m tlb asid) hcoherent' rfl

/-- The condition is exact for a single fault. -/
theorem vmFault_ram_iff (hcurrent : m.tVmspace = some a)
    (hframe : m.InFrame a (pageFrame va) frame)
    (hdone : vmFault depth faulttype va m = .ok () m') :
    m'.ram = m.ram ↔ ∀ o byte, m.fileImage a (pageFrame va) o = some byte →
      m.ram ((m.coremap frame).pa + o) = byte := by
  obtain ⟨base, hentered⟩ :=
    (vmFault_inFrame hcurrent hframe depth faulttype).post_of_ok hdone
  obtain ⟨tlb, rfl⟩ := hentered.same
  have hram : ((m.withStackvbase a base).loaded a (pageFrame va) frame).ram =
      overlay m.ram (m.coremap frame).pa (m.fileImage a (pageFrame va)) := by
    rw [ram_loaded, fileImage_withStackvbase]
    rfl
  exact (iff_of_eq (congrArg (· = m.ram) hram)).trans overlay_eq_self_iff

/-- A process whose page at `0x10000000` holds one byte of initialised data, and
whose page at `0x20000000` is in its heap. -/
private def process : Machine where
  ram _ := 0
  tlb := .invalid
  asid := 0
  swapDisk _ := 0
  lhClear := true
  coremap i := ⟨if i = 3 then 0x10000000 else 0x20000000, 0x40000 + i * 4096, some 0, 1, i,
    true, false⟩
  swapHolder _ := ⟨0, 0, none, 0, 0, false, false⟩
  gblBmp := ⟨8, fun _ => 0xff⟩
  swapBmp := ⟨8, fun _ => 0⟩
  maxPageNum := 8
  memStart := 0x40000
  ref := 9
  addrspace _ := {
    asVnode := fun _ n => (List.replicate n 1, none)
    filesizeData := 1
    offData := 0
    filesizeText := 0
    offText := 0
    firstpt := fun top =>
      if top = 64 then some fun btm => if btm = 0 then 6 else 0
      else if top = 128 then some fun btm => if btm = 0 then 8 else 0
      else none
    asVbase1 := 0x400000
    asNpages1 := 1
    asVbase2 := 0x10000000
    asNpages2 := 1
    heaptop := 0x10001000
    heapbottom := 0x10001000
    asPbase1 := 0
    asPbase2 := 0
    asStackvbase := 0x80000000 }
  tVmspace := some 0
  pid := 2
  kmallocWords _ _ := 0
  kmallocs := 0

private def faulted (va : Nat) : Machine :=
  (vmFault 1 .VM_FAULT_WRITE va process).stateD process

private def stored (va : Nat) : Machine :=
  (faulted va).withRam (Function.update (faulted va).ram (process.home 0 va) 9)

private def flushed (va : Nat) : Machine := (tlbFlush (stored va)).stateD (stored va)

end OS161.VM.Machine
