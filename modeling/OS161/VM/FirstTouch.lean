import OS161.VM.LoadElf

namespace OS161.VM.Machine

open OS161.Data
open OS161.Kern
open OS161.Lib

/-! What `vm_fault` takes a page for on the first access to it. -/

variable {m m' : Machine} {a : AsId} {start frames va : Nat} {entry : Int}

/-- The three cases of the page-table entry. -/
inductive Branch where
  | swapped
  | neverMapped
  | resident
  deriving DecidableEq, Repr

def branchOf (entry : Int) : Branch :=
  if entry.tmod 2 = 1 then .swapped
  else if entry.tdiv 2 = 0 then .neverMapped
  else .resident

/-- `vm_fault` up to where it looks at the entry. -/
def faultEntry (faulttype : FaultType) (address : Nat) : Op (AsId × Int) := do
  let faultaddress := pageFrame address
  if faultaddress = 1073741824 then Prog.fail .EFAULT
  else if faulttype = .VM_FAULT_READONLY then Prog.panic .vmFaultReadonly
  else
    match (← Prog.get).tVmspace with
    | none => Prog.fail .EFAULT
    | some a =>
        if faultaddress = 0 then Prog.fail .EFAULT
        else do
          growStack a faultaddress
          checkSetup ((← Prog.get).addrspace a)
          makeTable a faultaddress
          let entry ← readPte a faultaddress
          pure (a, entry)

/-- A new frame for the page. -/
def mapNew (touch : Bool → Nat → Op Nat) (a : AsId) (faultaddress : Nat) : Op Unit := do
  let m ← Prog.get
  let (temp, index) ← getFrame touch faultaddress (m.swapBmp.nbits + 1)
  setCoremap index fun e => { e with npages := 1 }
  writePte a faultaddress (index * 2)
  ptInsert faultaddress temp

def takeBranch (touch : Bool → Nat → Op Nat) (a : AsId) (faultaddress : Nat) (entry : Int) :
    Op Unit :=
  match branchOf entry with
  | .swapped => do
      let fail ← swapHandler touch (entry.tdiv 2).toNat faultaddress
      Prog.when (fail = false) (Prog.fail .ENOMEM)
  | .neverMapped => mapNew touch a faultaddress
  | .resident => pure ()

theorem mapPage_eq (touch : Bool → Nat → Op Nat) (a : AsId) (faultaddress : Nat) :
    mapPage touch a faultaddress =
      readPte a faultaddress >>= takeBranch touch a faultaddress := by
  unfold mapPage takeBranch branchOf
  congr 1
  funext entry
  split_ifs with hodd hzero
  · rfl
  · rw [Prog.when, if_pos hzero]
    rfl
  · rw [Prog.when, if_neg hzero]
    rfl

/-- `vm_fault` decides by the entry alone. -/
theorem vmFaultWith_eq (touch : Bool → Nat → Op Nat) (faulttype : FaultType) (address : Nat) :
    vmFaultWith touch faulttype address =
      (do
        let found ← faultEntry faulttype address
        takeBranch touch found.1 (pageFrame address) found.2
        refill found.1 (pageFrame address)) := by
  unfold vmFaultWith faultEntry
  simp only [mapPage_eq]
  by_cases hguard : pageFrame address = 1073741824
  · simp only [if_pos hguard]
    rfl
  by_cases hreadonly : faulttype = .VM_FAULT_READONLY
  · simp only [if_neg hguard, if_pos hreadonly]
    rfl
  simp only [if_neg hguard, if_neg hreadonly, Prog.andThen_assoc]
  congr 1
  funext m
  cases m.tVmspace with
  | none => rfl
  | some a =>
      by_cases hnull : pageFrame address = 0
      · simp only [if_pos hnull]
        rfl
      · simp only [if_neg hnull, Prog.andThen_assoc]
        rfl

/-! The word that decides. -/

/-- The entry that a fault on the page finds, in the table there is or in the one that is
made. -/
def foundWord (m : Machine) (a : AsId) (va : Nat) : Int :=
  match (m.addrspace a).firstpt (topten va) with
  | some table => table (btmten va)
  | none => m.kmallocWords m.kmallocs (btmten va)

/-- `vm_fault` gets to the entry: the address is not one of the two that are refused, the
assertions hold, and there is a frame for the table if one has to be made. -/
structure Reaches (m : Machine) (a : AsId) (va : Nat) : Prop where
  notNull : va ≠ 0
  notRefused : va ≠ 0x40000000
  setUp : SetUp (m.addrspace a)
  frame : (m.addrspace a).firstpt (topten va) = none → 0 < m.freeFrames

/-- A word that is taken for the entry of a page without a frame.  Minus one is odd and its
remainder is not one. -/
def BlankWord (word : Int) : Prop := word = 0 ∨ word = -1

theorem branchOf_eq_neverMapped_iff : branchOf entry = .neverMapped ↔ BlankWord entry := by
  have hsum := Int.tmod_add_mul_tdiv entry 2
  have hhigh := Int.tmod_lt_of_pos entry (show (0 : Int) < 2 by decide)
  have hlow := Int.lt_tmod_of_pos entry (show (0 : Int) < 2 by decide)
  have hneg : entry ≤ 0 → entry.tmod 2 ≤ 0 := by
    intro hle
    have hnonneg := @Int.tmod_nonneg (-entry) 2 (by omega)
    rw [Int.neg_tmod] at hnonneg
    omega
  have hpos : 0 ≤ entry → 0 ≤ entry.tmod 2 := Int.tmod_nonneg 2
  unfold branchOf BlankWord
  split_ifs with hodd hzero
  · refine iff_of_false (by decide) ?_
    omega
  · refine iff_of_true rfl ?_
    omega
  · refine iff_of_false (by decide) ?_
    omega

theorem checkSetup_iff (as : Addrspace) (m : Machine) :
    Prog.wp (checkSetup as) (fun _ m' => SetUp as ∧ m' = m) (fun _ _ => False)
      (fun _ => ¬ SetUp as) m := by
  by_cases hsetup : SetUp as
  · exact Prog.wp_mono hsetup.checkSetup (fun _ _ hsame => ⟨hsetup, hsame⟩)
      (fun _ _ hfails => hfails.elim) (fun _ hbad => hbad.elim)
  · have haligned : ∀ va, pageFrame va = va → va % PAGE_SIZE = 0 := by
      intro va hva
      simp only [pageFrame, PAGE_SIZE] at hva ⊢
      omega
    simp only [checkSetup, ↓Prog.wp_bind, ↓Prog.wp_assert]
    split_ifs with h1 h2 h3 h4 h5 h6 h7
    · exact absurd ⟨h1, h2, h3, haligned _ h4, haligned _ h5, haligned _ h6, haligned _ h7⟩ hsetup
    all_goals exact hsetup

/-- The table is there afterwards, with the words that it had or that `kmalloc` left in it. -/
theorem makeTable_found (hroom : FrameRoom start frames m) (a : AsId) (va : Nat) :
    Prog.wp (makeTable a va)
      (fun _ m' => ((m.addrspace a).firstpt (topten va) = none → 0 < m.freeFrames) ∧
        m'.pte a va = some (m.foundWord a va))
      (fun _ _ => False)
      (fun _ => ¬ ((m.addrspace a).firstpt (topten va) = none → 0 < m.freeFrames)) m := by
  simp only [makeTable, ↓Prog.wp_bind, ↓Prog.wp_get, ↓Prog.wp_when]
  cases hslot : (m.addrspace a).firstpt (topten va) with
  | some table =>
      simp only [Option.isNone_some, Bool.false_eq_true, if_false, reduceCtorEq, false_implies,
        true_and]
      rw [pte, foundWord, hslot]
      rfl
  | none =>
      simp only [Option.isNone_none, if_true, true_implies, setAddrspace]
      by_cases hfree : 0 < m.freeFrames
      · refine Prog.wp_mono (kmallocTable_wp hroom a) ?_ (fun _ _ hfails => hfails.elim) ?_
        · rintro table m₁ ⟨g, hgiven⟩
          rw [Prog.wp_modify]
          refine ⟨hfree, ?_⟩
          simp only [pte, foundWord, hslot, Function.update_self, Addrspace.writeFirstpt,
            Option.map_some, hgiven.words]
        · rintro reason ⟨-, hnone⟩
          omega
      · refine Prog.wp_mono (kmallocTable_wp hroom a) ?_ (fun _ _ hfails => hfails.elim) ?_
        · rintro table m₁ ⟨g, hgiven⟩
          exact absurd (Finset.card_pos.mpr ⟨g, hgiven.free g (List.mem_singleton_self g)⟩) hfree
        · exact fun _ _ => hfree

theorem SetUp.withStackvbase {as : Addrspace} (base : Nat) :
    SetUp { as with asStackvbase := base } ↔ SetUp as :=
  ⟨fun hsetup => ⟨hsetup.1, hsetup.2, hsetup.3, hsetup.4, hsetup.5, hsetup.6, hsetup.7⟩,
    fun hsetup => ⟨hsetup.1, hsetup.2, hsetup.3, hsetup.4, hsetup.5, hsetup.6, hsetup.7⟩⟩

theorem faultEntry_wp (hroom : FrameRoom start frames m) (hspace : m.tVmspace = some a)
    {faulttype : FaultType} (hmiss : faulttype ≠ .VM_FAULT_READONLY) (address : Nat) :
    Prog.wp (faultEntry faulttype address)
      (fun found _ => Reaches m a (pageFrame address) ∧
        found = (a, m.foundWord a (pageFrame address)))
      (fun _ _ => ¬ Reaches m a (pageFrame address))
      (fun _ => ¬ Reaches m a (pageFrame address)) m := by
  unfold faultEntry
  rw [Prog.wp_ite]
  split
  case isTrue hrefused => exact fun hreaches => hreaches.notRefused hrefused
  case isFalse hallowed =>
  simp only [↓Prog.wp_bind, ↓Prog.wp_get, hspace, ↓Prog.wp_ite]
  split
  case isTrue hnull => exact fun hreaches => hreaches.notNull hnull
  case isFalse hpage =>
  apply growStack_wp
  intro base
  have hroom₁ : FrameRoom start frames (m.withStackvbase a base) :=
    hroom.grown ((Grown.refl a m).withAddrspace _)
  have has : (m.withStackvbase a base).addrspace a =
      { m.addrspace a with asStackvbase := base } := Function.update_self ..
  have hword : (m.withStackvbase a base).foundWord a (pageFrame address) =
      m.foundWord a (pageFrame address) := by
    rw [foundWord, foundWord, has]
    rfl
  refine Prog.wp_mono (checkSetup_iff _ _) ?_ (fun _ _ hfails => hfails.elim) ?_
  · rintro _ m₂ ⟨hsetup, rfl⟩
    rw [has, SetUp.withStackvbase] at hsetup
    refine Prog.wp_mono (makeTable_found hroom₁ a (pageFrame address)) ?_
      (fun _ _ hfails => hfails.elim) ?_
    · rintro _ m₃ ⟨hframe, hfound⟩
      rw [has] at hframe
      rw [wp_readPte, hfound, hword]
      exact ⟨⟨hpage, hallowed, hsetup, hframe⟩, rfl⟩
    · intro _ hnone hreaches
      apply hnone
      rw [has]
      exact hreaches.frame
  · intro _ hnot hreaches
    rw [has, SetUp.withStackvbase] at hnot
    exact hnot hreaches.setUp

/-- What raises a fault on a page that is not mapped. -/
def missType (write : Bool) : FaultType := if write then .VM_FAULT_WRITE else .VM_FAULT_READ

theorem missType_ne (write : Bool) : missType write ≠ .VM_FAULT_READONLY := by
  cases write with
  | true => decide
  | false => decide

/-- The fault takes the page for one that was never mapped. -/
def TreatedAsNew (m : Machine) (a : AsId) (write : Bool) (address : Nat) : Prop :=
  ∃ entry m', faultEntry (missType write) address m = .ok (a, entry) m' ∧
    branchOf entry = .neverMapped

theorem treatedAsNew_iff (hroom : FrameRoom start frames m) (hspace : m.tVmspace = some a)
    (write : Bool) (address : Nat) :
    TreatedAsNew m a write address ↔
      Reaches m a (pageFrame address) ∧ BlankWord (m.foundWord a (pageFrame address)) := by
  have hrun := faultEntry_wp hroom hspace (missType_ne write) address
  constructor
  · rintro ⟨entry, m', hok, hnever⟩
    obtain ⟨hreaches, hfound⟩ := hrun.post_of_ok hok
    rw [Prod.mk.injEq] at hfound
    rw [← hfound.2, ← branchOf_eq_neverMapped_iff]
    exact ⟨hreaches, hnever⟩
  · rintro ⟨hreaches, hword⟩
    have hreturns : Prog.Returns (faultEntry (missType write) address)
        (fun found _ => found = (a, m.foundWord a (pageFrame address))) m :=
      Prog.wp_mono hrun (fun _ _ hpost => hpost.2) (fun _ _ hnot => hnot hreaches)
        (fun _ hnot => hnot hreaches)
    obtain ⟨found, m', hok, rfl⟩ := hreturns.exists_ok
    exact ⟨_, m', hok, branchOf_eq_neverMapped_iff.mpr hword⟩

/-! A new address space. -/

/-- The frames are in order, and `kmalloc` has the same words in store. -/
structure SameStore (start frames : Nat) (m m' : Machine) : Prop where
  room : FrameRoom start frames m'
  kmallocWords : m'.kmallocWords = m.kmallocWords
  kmallocs : m'.kmallocs = m.kmallocs

theorem SameStore.reframed {m₁ : Machine} (hsame : SameStore start frames m m')
    (hreframed : Reframed m' m₁) (hwords : m₁.kmallocWords = m'.kmallocWords)
    (hcount : m₁.kmallocs = m'.kmallocs) : SameStore start frames m m₁ :=
  ⟨⟨hsame.room.framed.reframed hreframed, hsame.room.pos, hsame.room.aligned, hsame.room.room⟩,
    hwords.trans hsame.kmallocWords, hcount.trans hsame.kmallocs⟩

theorem reframed_counted (m : Machine) (f npages : Nat) : Reframed m (m.counted f npages) :=
  ⟨rfl, rfl, rfl, fun _ _ hset => hset, pa_update rfl⟩

theorem allocKpages_sameStore (hroom : FrameRoom start frames m) (unset : Unset) :
    Prog.wp (allocKpages 1 unset) (fun _ m' => SameStore start frames m m')
      (fun _ _ => True) (fun _ => True) m := by
  have hstart : SameStore start frames m m := ⟨hroom, rfl, rfl⟩
  simp only [allocKpages, getppages, setCoremap, ↓Prog.wp_bind, ↓Prog.wp_assert]
  rw [if_pos (by decide), if_pos trivial]
  simp only [↓Prog.wp_bind]
  apply hroom.take 0
  · intro _
    refine ⟨?_, trivial⟩
    rw [if_pos ⟨rfl, rfl⟩]
    simp only [↓Prog.wp_get, ↓Prog.wp_assert, ↓Prog.wp_modify, if_true, ↓Prog.wp_pure]
    split
    case isFalse => trivial
    case isTrue => exact hstart.reframed (reframed_counted m unset.index 1) rfl rfl
  · intro temp f hne htemp htaken hgrown
    rw [if_neg (fun hzero => hne hzero.1)]
    simp only [↓Prog.wp_get, ↓Prog.wp_assert, ↓Prog.wp_modify, ↓Prog.wp_ite, if_neg hne,
      ↓Prog.wp_bind]
    split
    case isFalse => trivial
    case isTrue =>
        have htook := hstart.reframed (reframed_took m f) rfl rfl
        have hcounted := htook.reframed (reframed_counted (m.took f) f 1) rfl rfl
        have htaken₁ := (unseen_counted (m.took f) f 1).keepsTaken htaken
        show Prog.wp (ptInsert _ _) _ _ _ ((m.took f).counted f 1)
        rw [htaken₁.ptInsert hroom.wraps hcounted.room.framed]
        have hinserted : SameStore start frames m
            (((m.took f).counted f 1).inserted f (paddrToKvaddr temp) temp) :=
          ⟨⟨htaken₁.inserted hcounted.room.framed _, hroom.pos, hroom.aligned, hroom.room⟩, rfl, rfl⟩
        rw [Prog.wp_pure]
        split
        case isTrue => exact hinserted
        case isFalse => exact hinserted

/-- The first-level table of a new address space holds whatever words were left in it. -/
theorem asCreate_wp (hroom : FrameRoom start frames m) (mem : AsMemory) :
    Prog.wp (asCreate mem)
      (fun a m' => SameStore start frames m m' ∧ (m'.addrspace a).firstpt = mem.firstpt)
      (fun _ _ => True) (fun _ => True) m := by
  have hstart : SameStore start frames m m := ⟨hroom, rfl, rfl⟩
  simp only [asCreate, ↓Prog.wp_bind]
  refine Prog.wp_mono (@Prog.wp_when_of _ _ _ _ _ _ (fun _ m₁ => SameStore start frames m m₁)
    _ _ _ ?_ hstart) ?_ (fun _ _ hfails => hfails) (fun _ hbad => hbad)
  · intro _
    simp only [↓Prog.wp_bind]
    refine Prog.wp_mono (allocKpages_sameStore hroom mem.unset) ?_ (fun _ _ _ => trivial)
      (fun _ _ => trivial)
    intro page m₁ hsame
    rw [Prog.wp_when]
    split
    case isTrue => trivial
    case isFalse => exact hsame
  · intro _ m₁ hsame
    cases mem.self with
    | none => trivial
    | some a =>
        simp only [setAddrspace, ↓Prog.wp_bind]
        refine Prog.wp_mono (allocKpages_sameStore hsame.room mem.unset) ?_ (fun _ _ _ => trivial)
          (fun _ _ => trivial)
        intro page m₂ hsame₂
        rw [Prog.wp_when]
        split
        case isTrue => trivial
        case isFalse =>
            rw [Prog.wp_modify]
            refine ⟨⟨⟨hsame₂.room.framed.reframed
              ⟨rfl, rfl, rfl, fun _ _ hset => hset, fun _ => rfl⟩, hroom.pos, hroom.aligned,
              hroom.room⟩, hsame₂.kmallocWords.trans hsame.kmallocWords,
              hsame₂.kmallocs.trans hsame.kmallocs⟩, ?_⟩
            simp only [Function.update_self]

/-- A thread runs in the address space, whose regions have been defined by now. -/
def running (m : Machine) (a : AsId) (as : Addrspace) : Machine :=
  { m.withAddrspace a as with tVmspace := some a }

theorem SameStore.running {m₁ : Machine} (hsame : SameStore start frames m m₁) (a : AsId)
    (as : Addrspace) : FrameRoom start frames (m₁.running a as) :=
  ⟨hsame.room.framed.reframed ⟨rfl, rfl, rfl, fun _ _ hset => hset, fun _ => rfl⟩, hsame.room.pos,
    hsame.room.aligned, hsame.room.room⟩

/-- What decides about the first fault on a page of a new address space: its two guards, the
assertions, and the words that were left in the memory that `kmalloc` gave for the tables. -/
structure NewPage (mem : AsMemory) (m : Machine) (as : Addrspace) (va : Nat) : Prop where
  notNull : va ≠ 0
  notRefused : va ≠ 0x40000000
  setUp : SetUp as
  word : match mem.firstpt (topten va) with
    | some table => BlankWord (table (btmten va))
    | none => 0 < m.freeFrames ∧ BlankWord (m.kmallocWords m.kmallocs (btmten va))

/-- Whatever the memory from `kmalloc` held, the first fault on a page of a new address space
takes it for one that was never mapped exactly if the words that stand in for its entry happen
to say so. -/
theorem first_touch_iff {mem : AsMemory} {m₁ : Machine} (hroom : FrameRoom start frames m)
    (hcreate : asCreate mem m = .ok a m₁) {as : Addrspace}
    (hfresh : as.firstpt = (m₁.addrspace a).firstpt) (write : Bool) (address : Nat) :
    TreatedAsNew (m₁.running a as) a write address ↔ NewPage mem m₁ as (pageFrame address) := by
  obtain ⟨hsame, hfirstpt⟩ := (asCreate_wp hroom mem).post_of_ok hcreate
  have has : (m₁.running a as).addrspace a = as := Function.update_self ..
  rw [treatedAsNew_iff (hsame.running a as) rfl write address]
  have hslot : ((m₁.running a as).addrspace a).firstpt = mem.firstpt := by
    rw [has, hfresh, hfirstpt]
  unfold foundWord
  constructor
  · rintro ⟨hreaches, hword⟩
    refine ⟨hreaches.notNull, hreaches.notRefused, has ▸ hreaches.setUp, ?_⟩
    have hframe := hreaches.frame
    rw [hslot] at hframe hword
    cases hentry : mem.firstpt (topten (pageFrame address)) with
    | some table =>
        rw [hentry] at hword
        exact hword
    | none =>
        rw [hentry] at hword
        exact ⟨hframe hentry, hword⟩
  · intro hnew
    have hword := hnew.word
    rw [hslot]
    cases hentry : mem.firstpt (topten (pageFrame address)) with
    | some table =>
        rw [hentry] at hword
        refine ⟨⟨hnew.notNull, hnew.notRefused, has.symm ▸ hnew.setUp, ?_⟩, hword⟩
        rw [hslot, hentry]
        exact fun hnone => nomatch hnone
    | none =>
        rw [hentry] at hword
        exact ⟨⟨hnew.notNull, hnew.notRefused, has.symm ▸ hnew.setUp, fun _ => hword.1⟩, hword.2⟩

/-- `kmalloc` gives a structure for the first address space, and tables with these words. -/
private def handedOut (words : Nat → Int) : Machine :=
  { spacious (twoRegions 0x400000 1 0x10000000 1) (fun _ => 0) with kmallocWords := fun _ => words }

/-- No word of the new first-level table looks like the address of a table. -/
private def nullTables : AsMemory := ⟨some 0, false, fun _ => none, ⟨0, 0⟩⟩

private def created (words : Nat → Int) : Machine :=
  (asCreate nullTables (handedOut words)).stateD (handedOut words)

private theorem handedOut_room (words : Nat → Int) : FrameRoom 4096 4096 (handedOut words) := by
  have hroom := spacious_room (twoRegions 0x400000 1 0x10000000 1) (fun _ => 0)
  exact ⟨hroom.framed.reframed ⟨rfl, rfl, rfl, fun _ _ hset => hset, fun _ => rfl⟩, hroom.pos,
    hroom.aligned, hroom.room⟩

/-- Where the words are zero the first page of the text is new. -/
theorem first_touch_of_zeros :
    TreatedAsNew ((created fun _ => 0).running 0 (twoRegions 0x400000 1 0x10000000 1)) 0 false
      0x400000 := by
  have hreturned : (asCreate nullTables (handedOut fun _ => 0)).returned = some 0 := by
    decide
  have hcreate := Result.eq_ok_of_returned (handedOut fun _ => 0) hreturned
  have hfirstpt := ((asCreate_wp (handedOut_room fun _ => 0) nullTables).post_of_ok hcreate).2
  have hbits : (created fun _ => 0).gblBmp.nbits = 4096 := by decide
  have hclear : (created fun _ => 0).gblBmp.bitmapIsset 8 = false := by decide
  have hfree : 0 < (created fun _ => 0).freeFrames := by
    refine Finset.card_pos.mpr ⟨8, mem_freeSet.mpr ⟨?_, hclear⟩⟩
    rw [hbits]
    decide
  have hword : (created fun _ => 0).kmallocWords (created fun _ => 0).kmallocs 0 = 0 := by
    decide
  refine (first_touch_iff (handedOut_room fun _ => 0) hcreate hfirstpt.symm false 0x400000).mpr ?_
  exact ⟨by decide, by decide, ⟨by decide, by decide, by decide, rfl, rfl, rfl, rfl⟩, hfree,
    Or.inl hword⟩

/-- Old words in the table that `vm_fault` has just got make the same page swapped out or
resident. -/
theorem first_touch_of_old_words :
    (∃ m', asCreate nullTables (handedOut fun _ => 5) = .ok 0 (created fun _ => 5) ∧
      faultEntry .VM_FAULT_READ 0x400000
        ((created fun _ => 5).running 0 (twoRegions 0x400000 1 0x10000000 1)) = .ok (0, 5) m' ∧
      branchOf 5 = .swapped) ∧
    ∃ m', asCreate nullTables (handedOut fun _ => 6) = .ok 0 (created fun _ => 6) ∧
      faultEntry .VM_FAULT_READ 0x400000
        ((created fun _ => 6).running 0 (twoRegions 0x400000 1 0x10000000 1)) = .ok (0, 6) m' ∧
      branchOf 6 = .resident := by
  have hodd : (asCreate nullTables (handedOut fun _ => 5)).returned = some 0 := by decide
  have heven : (asCreate nullTables (handedOut fun _ => 6)).returned = some 0 := by decide
  have hfive : (faultEntry .VM_FAULT_READ 0x400000 ((created fun _ => 5).running 0
      (twoRegions 0x400000 1 0x10000000 1))).returned = some (0, 5) := by decide
  have hsix : (faultEntry .VM_FAULT_READ 0x400000 ((created fun _ => 6).running 0
      (twoRegions 0x400000 1 0x10000000 1))).returned = some (0, 6) := by decide
  exact ⟨⟨_, Result.eq_ok_of_returned (handedOut fun _ => 5) hodd,
      Result.eq_ok_of_returned (created fun _ => 5) hfive, by decide⟩,
    _, Result.eq_ok_of_returned (handedOut fun _ => 6) heven,
      Result.eq_ok_of_returned (created fun _ => 6) hsix, by decide⟩

end OS161.VM.Machine
