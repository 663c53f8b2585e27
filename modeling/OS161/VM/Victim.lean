import OS161.Data.LastLeast
import OS161.VM.FrameOwnership

namespace OS161.VM.Machine

open OS161.Data
open OS161.Kern
open OS161.Lib

/-! The page that `evict` gives up: which frame `find_fifo` picks, and what becomes
of the call where it picks wrong. -/

variable {m m' : Machine} {vaddr i j : Nat}

/-- A frame in use that holds a resident page of a user address space and is not
locked. -/
structure Candidate (m : Machine) (i : Nat) (a : AsId) : Prop where
  low : 3 ≤ i
  lt : i < m.maxPageNum
  marked : m.gblBmp.bitmapIsset i = true
  unlocked : (m.coremap i).locked = false
  owner : (m.coremap i).addr = some a
  user : (m.coremap i).va < KSEG0
  resident : m.pte a (m.coremap i).va = some ((i : Int) * 2)

/-- What `find_fifo` asks of a frame.  It looks neither at `gbl_bmp` nor at what the
page-table entry says. -/
structure Considered (m : Machine) (i : Nat) : Prop where
  low : 3 ≤ i
  lt : i < m.maxPageNum
  unlocked : (m.coremap i).locked = false
  entry : ∃ a entry, (m.coremap i).addr = some a ∧
    m.pte a (m.coremap i).va = some entry ∧ entry ≠ 0

theorem Candidate.considered (h : m.Candidate i a) : m.Considered i := by
  have hlow := h.low
  exact ⟨hlow, h.lt, h.unlocked, a, i * 2, h.owner, h.resident, by omega⟩

/-- The frame that is first out: allocated before all others that `find_fifo`
considers, or with the last of them. -/
def FirstOut (m : Machine) (i : Nat) : Prop :=
  LastLeast m.Considered (fun j => (m.coremap j).time) i

section FindFifo

open Classical in
theorem findFifoTurn_eq (hlow : 3 ≤ i) (hlt : i < m.maxPageNum) (carried : Nat × Nat) :
    m.findFifoTurn carried i =
      keepLast m.Considered (fun j => (m.coremap j).time) carried i := by
  unfold findFifoTurn keepLast
  cases haddr : (m.coremap i).addr with
  | none =>
      have hnot : ¬ m.Considered i := by
        rintro ⟨-, -, -, a, entry, hsome, -⟩
        rw [haddr] at hsome
        cases hsome
      simp [hnot, haddr]
  | some a =>
      have hiff : m.Considered i ↔ (m.coremap i).locked = false ∧
          ∃ entry, m.pte a (m.coremap i).va = some entry ∧ entry ≠ 0 := by
        constructor
        · rintro ⟨-, -, hunlocked, a', entry, hsome, hentry⟩
          rw [haddr] at hsome
          cases hsome
          exact ⟨hunlocked, entry, hentry⟩
        · rintro ⟨hunlocked, entry, hentry⟩
          exact ⟨hlow, hlt, hunlocked, a, entry, haddr, hentry⟩
      cases hpte : m.pte a (m.coremap i).va with
      | none => simp [haddr, hiff, hpte]
      | some entry =>
          by_cases hzero : entry = 0
          · simp [haddr, hiff, hpte, hzero]
          · simp [haddr, hiff, hpte, hzero]

/-- Where the code considers any frame, it picks the one that is first out. -/
theorem findFifo_eq_iff (htimes : ∀ j < m.maxPageNum, (m.coremap j).time < 2 ^ 32)
    (hsome : m.Considered j) : m.findFifo = i ↔ m.FirstOut i := by
  classical
  have hfold : ∀ (l : List Nat) (carried : Nat × Nat),
      (∀ k ∈ l, 3 ≤ k ∧ k < m.maxPageNum) →
      l.foldl m.findFifoTurn carried =
        l.foldl (keepLast m.Considered fun j => (m.coremap j).time) carried := by
    intro l
    induction l with
    | nil => exact fun _ _ => rfl
    | cons k l ih =>
        intro carried hl
        obtain ⟨hlow, hlt⟩ := hl k List.mem_cons_self
        rw [List.foldl_cons, List.foldl_cons, findFifoTurn_eq hlow hlt]
        exact ih _ fun k hk => hl k (List.mem_cons_of_mem _ hk)
  have hlow := hsome.low
  have hlt := hsome.lt
  rw [findFifo, hfold]
  · apply foldl_keepLast_eq_iff _ _ hsome
    · intro k hk
      have htime := htimes k hk.lt
      dsimp only
      omega
    · intro k hk
      have hlow := hk.low
      have hlt := hk.lt
      omega
  · intro k hk
    have hmem := List.mem_range'_1.mp hk
    omega

end FindFifo

/-- The machine after the page in frame `i` was given the swap slot. -/
def released (m : Machine) (i slot : Nat) (a : AsId) : Machine :=
  { m.setPte a (m.coremap i).va (slot * 2 + 1) with
    swapBmp := m.swapBmp.mark slot
    swapHolder := Function.update m.swapHolder slot
      { m.swapHolder slot with
        va := (m.coremap i).va
        npages := (m.coremap i).npages
        addr := (m.coremap i).addr }
    gblBmp := m.gblBmp.unmark i
    coremap := Function.update m.coremap i
      { m.coremap i with
        addr := none
        va := 0
        npages := 0
        time := 0
        valid := false } }

/-- Once the frame is released, `evict` writes the page to its slot and drops it
from the TLB. -/
def WritesOut (touch : Bool → Nat → Op Nat) (vaddr : Nat) (m : Machine) (i slot : Nat)
    (a : AsId) (m' : Machine) : Prop :=
  (do
    lhdIo touch false vaddr (copyOut slot)
    tlbDrop (m.coremap i).va NUM_TLB 0) (m.released i slot a) = .ok () m'

/-- However the kernel reaches the page it writes from, a call that comes back
with success has released a candidate, and none is older. -/
def ReleasesOldest (m : Machine) (vaddr : Nat) : Prop :=
  ∀ (touch : Bool → Nat → Op Nat) (m' : Machine), evict touch vaddr m = .ok true m' →
    ∃ i slot a, m.Candidate i a ∧
      (∀ j b, m.Candidate j b → (m.coremap i).time ≤ (m.coremap j).time) ∧
      m.swapBmp.bitmapIsset slot = false ∧ WritesOut touch vaddr m i slot a m'

/-- The call comes back without success and has changed nothing. -/
def FailsUntouched (m : Machine) (vaddr : Nat) : Prop :=
  ∀ touch : Bool → Nat → Op Nat, ∃ m' : Machine, evict touch vaddr m = .ok false m' ∧
    m'.coremap = m.coremap ∧ m'.gblBmp = m.gblBmp ∧ m'.swapBmp = m.swapBmp ∧
      (∀ a va, m'.pte a va = m.pte a va) ∧ m'.tlb = m.tlb

def SlotsFull (m : Machine) : Prop :=
  ∀ slot < m.swapBmp.nbits, m.swapBmp.bitmapIsset slot = true

/-- Given a candidate and a slot, `evict` releases the oldest candidate; otherwise it
fails and leaves everything as it was. -/
structure VictimSelection (m : Machine) (vaddr : Nat) : Prop where
  releases : (∃ i a, m.Candidate i a) → ¬ m.SlotsFull → m.ReleasesOldest vaddr
  fails : (¬ ∃ i a, m.Candidate i a) ∨ m.SlotsFull → m.FailsUntouched vaddr

/-- What holds of the tables from the boot on: their sizes, and that the times are
words. -/
structure Sized (m : Machine) : Prop where
  nbits : m.gblBmp.nbits = m.maxPageNum
  padding : ∀ j, m.swapBmp.nbits ≤ j → j < m.swapBmp.words * 8 →
    m.swapBmp.bitmapIsset j = true
  times : ∀ j < m.maxPageNum, (m.coremap j).time < 2 ^ 32

/-- The call picks a candidate wherever it comes back. -/
def PicksCandidate (m : Machine) : Prop :=
  (∃ i a, m.Candidate i a) ∧
    ∀ i, m.FirstOut i → m.gblBmp.bitmapIsset i = true → m.lhClear = true →
      ∃ a, m.Candidate i a

section Evict

variable {touch : Bool → Nat → Op Nat}

theorem Sized.alloc_full (hsized : m.Sized) (hfull : m.SlotsFull) :
    Bitmap.bitmapAlloc m.swapBmp = .error .ENOSPC m.swapBmp := by
  have halloc := Bitmap.bitmapAlloc_wp m.swapBmp
  cases hresult : Bitmap.bitmapAlloc m.swapBmp with
  | ok slot swapBmp =>
      obtain ⟨hlowest, hslot, -⟩ := halloc.post_of_ok hresult
      have hset := hfull slot hslot
      rw [hlowest.clear] at hset
      cases hset
  | error code swapBmp =>
      obtain ⟨rfl, rfl, -⟩ := halloc.fails_of_error hresult
      rfl
  | panic reason =>
      rw [Prog.wp, hresult] at halloc
      obtain ⟨-, slot, hlowest, hlarge, hword⟩ := halloc
      have hset := hsized.padding slot hlarge hword
      rw [hlowest.clear] at hset
      cases hset

theorem evict_full (hsized : m.Sized) (hfull : m.SlotsFull) :
    evict touch vaddr m = .ok false m := by
  simp only [evict, onSwapBmp, bind, Prog.andThen, Prog.attempt, Prog.zoom,
    hsized.alloc_full hfull]
  rfl

/-- With a slot, the call picks the frame, writes the tables and starts the disk. -/
theorem evict_slot (hfree : ¬ m.SlotsFull) :
    Prog.wp (evict touch vaddr)
      (fun done m' => done = true ∧ m.lhClear = true ∧
        ∃ slot a, m.Evictable slot a ∧ WritesOut touch vaddr m m.findFifo slot a m')
      (fun _ _ => True) (fun _ => True) m := by
  apply evict_wp vaddr (fun _ _ => trivial)
  · intro hall
    refine (hfree fun slot hslot => hall slot ?_).elim
    rw [Bitmap.words]
    omega
  · intro slot a hvictim
    cases hclear : m.lhClear with
    | false =>
        simp only [lhdIo, ↓Prog.wp_bind, ↓Prog.wp_get, ↓Prog.wp_assert]
        rw [if_neg]
        · trivial
        · simp [evicted, setPte, hclear]
    | true =>
        have hrun : Prog.wp (do
            lhdIo touch false vaddr (copyOut slot)
            tlbDrop (m.coremap m.findFifo).va NUM_TLB 0)
            (fun _ m' => WritesOut touch vaddr m m.findFifo slot a m')
            (fun _ _ => True) (fun _ => True) (m.evicted slot a) := Prog.wp_run _ _
        rw [Prog.wp_bind] at hrun
        refine Prog.wp_mono hrun ?_ (fun _ _ _ => trivial) (fun _ _ => trivial)
        intro _ _ hdrop
        refine Prog.wp_mono hdrop ?_ (fun _ _ _ => trivial) (fun _ _ => trivial)
        intro _ _ hwrites
        exact ⟨rfl, rfl, slot, a, hvictim, hwrites⟩

/-- The page is reached without a fault. -/
def reached : Bool → Nat → Op Nat := fun _ _ => pure 0

theorem reached_returns (m : Machine) (hclear : m.lhClear = true) (vaddr va slot : Nat) :
    Prog.Returns (do
      lhdIo reached false vaddr (copyOut slot)
      tlbDrop va NUM_TLB 0) (fun _ m' => m'.gblBmp = m.gblBmp) m := by
  rw [Prog.Returns]
  simp only [lhdIo, reached, ↓Prog.wp_bind, ↓Prog.wp_get, ↓Prog.wp_assert, ↓Prog.wp_modify,
    ↓Prog.wp_pure]
  rw [if_pos hclear]
  generalize hcopied : { copyOut slot 0 { m with lhClear := false } with lhClear := true } =
    copied
  have hbits : copied.gblBmp = m.gblBmp := by
    rw [← hcopied]
    rfl
  refine Prog.wp_mono (tlbDrop_returns copied va copied.asid) ?_ (fun _ _ h => h) (fun _ h => h)
  rintro _ m' ⟨tlb, asid, rfl⟩
  exact hbits

theorem writesOut_gblBmp (hclear : m.lhClear = true)
    (hwrites : WritesOut reached vaddr m i slot a m') : m'.gblBmp = m.gblBmp.unmark i :=
  (reached_returns (m.released i slot a) hclear vaddr _ slot).post_of_ok hwrites

/-- Nothing stops the call where the frame that it picks is in use and the disk is
free. -/
theorem evict_returns (hsized : m.Sized) (hfree : ¬ m.SlotsFull)
    (hpick : m.Considered m.findFifo) (hmarked : m.gblBmp.bitmapIsset m.findFifo = true)
    (hclear : m.lhClear = true) : ∃ m', evict reached vaddr m = .ok true m' := by
  obtain ⟨a, entry, haddr, hpte, -⟩ := hpick.entry
  have hlt : m.findFifo < m.gblBmp.nbits := by
    rw [hsized.nbits]
    exact hpick.lt
  have hgone : (m.gblBmp.unmark m.findFifo).bitmapIsset m.findFifo = false := by
    simp [Bitmap.isset_unmark]
  have hreturns : Prog.Returns (evict reached vaddr) (fun done _ => done = true) m := by
    simp only [Prog.Returns, evict, onSwapBmp, onGblBmp, ↓Prog.wp_bind, ↓Prog.wp_attempt,
      ↓Prog.wp_zoom]
    refine Prog.wp_mono (Bitmap.bitmapAlloc_wp m.swapBmp) ?_ ?_ ?_
    · rintro slot swapBmp ⟨-, -, rfl⟩
      simp only [↓Prog.wp_get, ↓Prog.wp_modify, Bitmap.wp_bitmapUnmark, ↓Prog.wp_assert]
      split
      case isFalse hnot => exact hnot hlt
      case isTrue =>
      split
      case isFalse hnot => exact hnot hmarked
      case isTrue =>
      split
      case isFalse hnot => exact hnot hgone
      case isTrue =>
      split
      case h_1 hnone => exact Option.some_ne_none a (haddr.symm.trans hnone)
      case h_2 b hsome =>
          obtain rfl : a = b := Option.some.inj (haddr.symm.trans hsome)
          simp only [↓Prog.wp_bind, wp_writePte, setCoremap, ↓Prog.wp_modify]
          split
          case isFalse hnot => exact hnot (Option.isSome_of_eq_some hpte)
          case isTrue =>
              have hrest := reached_returns (m.evicted slot a) hclear vaddr
                (m.coremap m.findFifo).va slot
              rw [Prog.Returns, Prog.wp_bind] at hrest
              refine Prog.wp_mono hrest ?_ (fun _ _ h => h) (fun _ h => h)
              intro _ _ hdrop
              exact Prog.wp_mono hdrop (fun _ _ _ => rfl) (fun _ _ h => h) (fun _ h => h)
    · rintro code swapBmp ⟨-, -, hall⟩
      refine (hfree fun slot hslot => hall slot ?_).elim
      rw [Bitmap.words]
      omega
    · rintro reason ⟨-, slot, hlowest, hlarge, hword⟩
      have hset := hsized.padding slot hlarge hword
      rw [hlowest.clear] at hset
      cases hset
  obtain ⟨done, m', hok, hdone⟩ := hreturns.exists_ok
  exact ⟨m', hdone ▸ hok⟩

end Evict

/-- `evict` releases the oldest candidate, and fails without a change where there is
none or no slot, exactly where no slot is free or the frame that is first out of
those that `find_fifo` considers is a candidate whenever the call comes back. -/
theorem victim_selection_iff (hsized : m.Sized) (vaddr : Nat) :
    m.VictimSelection vaddr ↔ m.SlotsFull ∨ m.PicksCandidate := by
  constructor
  · intro hselects
    by_cases hfull : m.SlotsFull
    · exact .inl hfull
    right
    by_cases hsome : ∃ i a, m.Candidate i a
    · refine ⟨hsome, ?_⟩
      intro i hfirst hmarked hclear
      obtain rfl := (findFifo_eq_iff hsized.times hfirst.passes).mpr hfirst
      obtain ⟨m', hok⟩ := evict_returns hsized hfull hfirst.passes hmarked hclear
      obtain ⟨i, slot, a, hcandidate, -, -, hwrites⟩ :=
        hselects.releases hsome hfull reached m' hok
      obtain ⟨-, -, slot', a', -, hactual⟩ := (evict_slot hfull).post_of_ok hok
      have hbits : m.gblBmp.unmark i = m.gblBmp.unmark m.findFifo :=
        (writesOut_gblBmp hclear hwrites).symm.trans (writesOut_gblBmp hclear hactual)
      have hsame : i = m.findFifo := by
        by_contra hne
        have hset := congrArg (fun b => b.bitmapIsset i) hbits
        simp [Bitmap.isset_unmark, hcandidate.marked, hne] at hset
      exact ⟨a, hsame ▸ hcandidate⟩
    · obtain ⟨m', hok, -⟩ := hselects.fails (.inl hsome) reached
      obtain ⟨hdone, -⟩ := (evict_slot hfull).post_of_ok hok
      cases hdone
  · intro hpicks
    refine ⟨?_, ?_⟩
    · intro hsome hfree touch m' hok
      obtain ⟨-, hpick⟩ := hpicks.resolve_left hfree
      obtain ⟨j, b, hcandidate⟩ := hsome
      have hfirst := (findFifo_eq_iff hsized.times hcandidate.considered).mp rfl
      obtain ⟨-, hclear, slot, a, hvictim, hwrites⟩ := (evict_slot hfree).post_of_ok hok
      obtain ⟨a', hchosen⟩ := hpick m.findFifo hfirst hvictim.marked hclear
      obtain rfl : a = a' := Option.some.inj (hvictim.addr.symm.trans hchosen.owner)
      exact ⟨m.findFifo, slot, a, hchosen, fun j b hj => hfirst.least j hj.considered,
        hvictim.lowest.clear, hwrites⟩
    · intro hnone touch
      have hfull : m.SlotsFull := by
        rcases hpicks with hfull | ⟨hsome, -⟩
        · exact hfull
        · exact hnone.resolve_left fun hnot => hnot hsome
      exact ⟨m, evict_full hsized hfull, rfl, rfl, rfl, fun _ _ => rfl, rfl⟩

private theorem afterSecond_sized : afterSecond.Sized := by
  have hnbits : afterSecond.swapBmp.nbits = 4 := by decide
  have hmax : afterSecond.maxPageNum = 6 := by decide
  refine ⟨by decide, ?_, ?_⟩
  · rw [Bitmap.words, hnbits]
    intro j hlow hhigh
    exact (by decide : ∀ j < 8, 4 ≤ j → afterSecond.swapBmp.bitmapIsset j = true) j
      hhigh hlow
  · rw [hmax]
    decide

/-- Of the two pages the older one goes. -/
theorem victim_selection_two_pages :
    afterSecond.Candidate 4 0 ∧ afterSecond.Candidate 5 0 ∧
      afterSecond.VictimSelection 0x20001000 := by
  have hfour : afterSecond.Candidate 4 0 := by
    constructor <;> decide
  have hfive : afterSecond.Candidate 5 0 := by
    constructor <;> decide
  have hpicks : afterSecond.PicksCandidate := by
    refine ⟨⟨4, 0, hfour⟩, ?_⟩
    intro i hfirst _ _
    have hfifo : afterSecond.findFifo = 4 := by decide
    obtain rfl : 4 = i :=
      hfifo.symm.trans ((findFifo_eq_iff afterSecond_sized.times hfour.considered).mpr hfirst)
    exact ⟨0, hfour⟩
  exact ⟨hfour, hfive, (victim_selection_iff afterSecond_sized 0x20001000).mpr (.inr hpicks)⟩

private def threeTables : Op Unit := do
  let _ ← kmallocTable
  let _ ← kmallocTable
  let _ ← kmallocTable
  pure ()

/-- The machine after the kernel has taken the three free frames. -/
private def kernelFull : Machine := (threeTables booted).stateD booted

/-- With nothing but kernel pages in memory, `evict` does not come back. -/
theorem no_candidate_no_return :
    (∀ i < 6, kernelFull.gblBmp.bitmapIsset i = true) ∧
      ¬ kernelFull.VictimSelection 0x20001000 := by
  refine ⟨by decide, ?_⟩
  intro hselects
  have hmax : kernelFull.maxPageNum = 6 := by decide
  have hkernel : ∀ i < 6, 3 ≤ i → KSEG0 ≤ (kernelFull.coremap i).va := by decide
  have hnone : ¬ ∃ i a, kernelFull.Candidate i a := by
    rintro ⟨i, a, hcandidate⟩
    have hva := hkernel i (hmax ▸ hcandidate.lt) hcandidate.low
    exact absurd hcandidate.user (Nat.not_lt.mpr hva)
  have hfree : ¬ kernelFull.SlotsFull := by
    intro hfull
    have hset := hfull 0 (by decide)
    revert hset
    decide
  obtain ⟨m', hok, -⟩ := hselects.fails (.inl hnone) reached
  obtain ⟨hdone, -⟩ := (evict_slot hfree).post_of_ok hok
  cases hdone

end OS161.VM.Machine
