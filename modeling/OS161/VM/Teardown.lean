import OS161.VM.FrameOwnership
import OS161.VM.RegionMap

namespace OS161.VM.Machine

open OS161.Data
open OS161.Kern
open OS161.Lib

/-! What `as_destroy` gives back, and what it should. -/

variable {m m₁ m₂ m' : Machine} {a : AsId} {pages : AsPages} {rest : Addrspace}
variable {i j f s va addr turns : Nat} {taken : Nat → Prop}
variable {fails : Errno → Machine → Prop}

/-! What an address space has. -/

/-- The page of a table of the address space, or of the address space itself. -/
def OwnPage (m : Machine) (a : AsId) (pages : AsPages) (addr : Nat) : Prop :=
  addr ≠ 0 ∧ (addr = pages.firstpt ∨ addr = pages.self ∨
    ∃ top < 1024, ((m.addrspace a).firstpt top).isSome = true ∧ addr = pages.table top)

def OwnFrame (m : Machine) (a : AsId) (pages : AsPages) (f : Nat) : Prop :=
  m.OwnPage a pages (m.coremap f).va

/-- A resident entry of the address space names the frame. -/
def NamesFrame (m : Machine) (a : AsId) (f : Nat) : Prop := ∃ va < 2 ^ 32, m.Resident a va f

/-- A swapped entry of the address space names the slot. -/
def NamesSlot (m : Machine) (a : AsId) (s : Nat) : Prop :=
  ∃ va < 2 ^ 32, m.pte a va = some ((s : Int) * 2 + 1)

/-- The swapped pages of the address space have their slots. -/
def SlotsOwned (m : Machine) (a : AsId) : Prop :=
  ∀ va < 2 ^ 32, ∀ entry, m.pte a va = some entry → entry % 2 = 1 →
    ∃ s : Nat, entry = (s : Int) * 2 + 1 ∧ m.swapBmp.bitmapIsset s = true

/-- The pages of the address space itself are none of the pages that it maps, and the word
behind the coremap, where a search for one of them ends, is not the address of one. -/
structure OwnPages (m : Machine) (a : AsId) (pages : AsPages) : Prop where
  apart : ∀ f, m.OwnFrame a pages f → ¬ m.NamesFrame a f
  behind : ¬ m.OwnFrame a pages m.maxPageNum

/-- The frames and the slots of the address space are free again, and besides its own pages
nothing else has changed. -/
structure TornDown (a : AsId) (pages : AsPages) (m m' : Machine) : Prop where
  frames : ∀ f, ¬ m.OwnFrame a pages f →
    (m'.gblBmp.bitmapIsset f = true ↔ m.gblBmp.bitmapIsset f = true ∧ ¬ m.NamesFrame a f)
  slots : ∀ s, m'.swapBmp.bitmapIsset s = true ↔
    m.swapBmp.bitmapIsset s = true ∧ ¬ m.NamesSlot a s
  coremap : ∀ f, ¬ m.OwnFrame a pages f → ¬ m.NamesFrame a f → m'.coremap f = m.coremap f

def TearsDown (a : AsId) (pages : AsPages) (m : Machine) :
    Result Errno Fault Machine Unit → Prop
  | .ok _ m' => TornDown a pages m m'
  | .error _ _ => False
  | .panic _ => False

/-! Frames that were given back. -/

/-- These frames were removed, and nothing else was changed in the coremap or the bitmaps. -/
structure Less (taken : Nat → Prop) (m m₁ : Machine) : Prop where
  maxPageNum : m₁.maxPageNum = m.maxPageNum
  nbits : m₁.gblBmp.nbits = m.gblBmp.nbits
  swapBmp : m₁.swapBmp = m.swapBmp
  clear : ∀ f, taken f → m₁.gblBmp.bitmapIsset f = false
  va : ∀ f, taken f → (m₁.coremap f).va = 0
  isset : ∀ f, ¬ taken f → m₁.gblBmp.bitmapIsset f = m.gblBmp.bitmapIsset f
  coremap : ∀ f, ¬ taken f → m₁.coremap f = m.coremap f

theorem Less.refl (m : Machine) : Less (fun _ => False) m m where
  maxPageNum := rfl
  nbits := rfl
  swapBmp := rfl
  clear _ hf := hf.elim
  va _ hf := hf.elim
  isset _ _ := rfl
  coremap _ _ := rfl

theorem va_removed (m : Machine) (f : Nat) : ((m.removed f).coremap f).va = 0 := by
  simp only [Machine.removed, Function.update_self]

theorem coremap_removed (m : Machine) {f' : Nat} (hne : f' ≠ f) :
    (m.removed f).coremap f' = m.coremap f' := by
  simp only [Machine.removed, Function.update_of_ne hne]

theorem Less.removed (hless : Less taken m m₁) (f : Nat) :
    Less (fun f' => taken f' ∨ f' = f) m (m₁.removed f) where
  maxPageNum := hless.maxPageNum
  nbits := by
    rw [Machine.removed]
    dsimp only
    split
    case isTrue => exact hless.nbits
    case isFalse => exact hless.nbits
  swapBmp := hless.swapBmp
  clear f' hf' := by
    rw [isset_removed]
    rcases hf' with htaken | rfl
    · rw [hless.clear f' htaken, Bool.false_and]
    · simp
  va f' hf' := by
    by_cases heq : f' = f
    · rw [heq, va_removed]
    · rw [coremap_removed m₁ heq]
      exact hless.va f' (hf'.resolve_right heq)
  isset f' hf' := by
    rw [not_or] at hf'
    rw [isset_removed, decide_eq_true hf'.2, Bool.and_true]
    exact hless.isset f' hf'.1
  coremap f' hf' := by
    rw [not_or] at hf'
    rw [coremap_removed m₁ hf'.2]
    exact hless.coremap f' hf'.1

theorem Less.withTlb (hless : Less taken m m₁) (tlb : Nat → TlbEntry) (asid : Nat) :
    Less taken m (m₁.withTlb tlb asid) :=
  ⟨hless.maxPageNum, hless.nbits, hless.swapBmp, hless.clear, hless.va, hless.isset,
    hless.coremap⟩

theorem Less.withAddrspace (hless : Less taken m m₁) (as : Addrspace) :
    Less taken m (m₁.withAddrspace a as) :=
  ⟨hless.maxPageNum, hless.nbits, hless.swapBmp, hless.clear, hless.va, hless.isset,
    hless.coremap⟩

theorem findVa_le (m : Machine) (addr turns i : Nat) : m.findVa addr turns i ≤ i + turns := by
  induction turns generalizing i with
  | zero => exact Nat.le_refl i
  | succ turns ih =>
      unfold findVa
      split
      case isTrue => omega
      case isFalse =>
          have hle := ih (i + 1)
          omega

/-- Giving back a page of the address space itself takes away at most its frame. -/
theorem Less.kfreePage (hless : Less taken m m₁) (hown : m.OwnPages a pages)
    (hbits : m.gblBmp.nbits = m.maxPageNum)
    (haddr : addr ≠ 0 → m.OwnPage a pages addr) :
    Prog.Returns (kfreePage addr)
      (fun _ m₂ => ∃ f, Less taken m m₂ ∨ m.OwnFrame a pages f ∧
        Less (fun f' => taken f' ∨ f' = f) m m₂) m₁ := by
  have hnothing : ∃ f, Less taken m m₁ ∨ m.OwnFrame a pages f ∧
      Less (fun f' => taken f' ∨ f' = f) m m₁ := ⟨0, Or.inl hless⟩
  rw [Machine.kfreePage, Prog.Returns, Prog.wp_when]
  split
  case isFalse => exact hnothing
  case isTrue hne =>
      simp only [freeKpages, ↓Prog.wp_bind, ↓Prog.wp_get, ↓Prog.wp_when]
      split
      case isFalse => exact hnothing
      case isTrue hva =>
          have hlow := findVa_ge m₁ addr (m₁.maxPageNum - 3) 3
          have hhigh := findVa_le m₁ addr (m₁.maxPageNum - 3) 3
          generalize m₁.findVa addr (m₁.maxPageNum - 3) 3 = i at hva hlow hhigh ⊢
          have hfresh : ¬ taken i := by
            intro htaken
            rw [hless.va i htaken] at hva
            exact hne hva.symm
          have howns : m.OwnFrame a pages i := by
            rw [hless.coremap i hfresh] at hva
            rw [OwnFrame, hva]
            exact haddr hne
          have hbound : i ≤ m₁.maxPageNum → i < m.maxPageNum := by
            intro hle
            rw [hless.maxPageNum] at hle
            refine Nat.lt_of_le_of_ne hle ?_
            rintro rfl
            exact hown.behind howns
          apply freeRun_wp i
          · intro hle hrange
            rw [hless.nbits, hbits] at hrange
            exact absurd (hbound hle) (Nat.not_lt.mpr hrange)
          · exact fun _ => hnothing
          · exact fun _ => hnothing
          · exact fun _ _ => ⟨i, Or.inr ⟨howns, hless.removed i⟩⟩

/-! The frames of the tables. -/

/-- An entry in a slot of the first level names the frame. -/
def SlotFrame (m : Machine) (a : AsId) (top f : Nat) : Prop :=
  ∃ va < 2 ^ 32, topten va = top ∧ m.Resident a va f

/-- Frames in `done` are gone, and no others than own pages and frames of the slots from 1
on. -/
def Freed (a : AsId) (pages : AsPages) (done : Nat → Prop) (m m₁ : Machine) : Prop :=
  ∃ taken, Less taken m m₁ ∧ (∀ f, done f → taken f) ∧
    ∀ f, taken f → m.OwnFrame a pages f ∨ ∃ top, 1 ≤ top ∧ m.SlotFrame a top f

variable {done : Nat → Prop} {table : Nat → Int}

theorem Freed.mono {done' : Nat → Prop} (hfreed : Freed a pages done m m₁)
    (hdone : ∀ f, done' f → done f) : Freed a pages done' m m₁ := by
  obtain ⟨taken, hless, hgone, hno⟩ := hfreed
  exact ⟨taken, hless, fun f hf => hgone f (hdone f hf), hno⟩

theorem Freed.kfreePage (hfreed : Freed a pages done m m₁) (hown : m.OwnPages a pages)
    (hbits : m.gblBmp.nbits = m.maxPageNum) (haddr : addr ≠ 0 → m.OwnPage a pages addr) :
    Prog.Returns (kfreePage addr) (fun _ m₂ => Freed a pages done m m₂) m₁ := by
  obtain ⟨taken, hless, hgone, hno⟩ := hfreed
  refine Prog.Returns.mono (hless.kfreePage hown hbits haddr) ?_
  rintro _ m₂ ⟨f, hsame | ⟨howns, hremoved⟩⟩
  · exact ⟨taken, hsame, hgone, hno⟩
  · refine ⟨_, hremoved, fun f' hf' => Or.inl (hgone f' hf'), ?_⟩
    rintro f' (htaken | rfl)
    · exact hno f' htaken
    · exact Or.inl howns

/-- No entry is odd. -/
def NoneSwapped (m : Machine) (a : AsId) : Prop :=
  ∀ va < 2 ^ 32, ∀ entry, m.pte a va = some entry → entry % 2 ≠ 1

theorem table_pte (htable : (m.addrspace a).firstpt i = some table) (hj : j < 1024) :
    m.pte a (i * 2 ^ 22 + j * 2 ^ 12) = some (table j) := by
  have htop : topten (i * 2 ^ 22 + j * 2 ^ 12) = i := by
    simp only [topten]
    omega
  have hbtm : btmten (i * 2 ^ 22 + j * 2 ^ 12) = j := by
    simp only [btmten]
    omega
  rw [pte, htop, hbtm, htable, Option.map_some]

/-- The loop over a table removes the frames that its entries name. -/
theorem Freed.removeEntries (hfreed : Freed a pages done m m₁) (howned : m.Owned)
    (hnone : m.NoneSwapped a) (htable : (m.addrspace a).firstpt i = some table)
    (hlow : 1 ≤ i) (hhigh : i < 1024) :
    Prog.Returns (removeEntries table)
      (fun _ m₂ => Freed a pages (fun f => done f ∨ m.SlotFrame a i f) m m₂) m₁ := by
  have hstart : Freed a pages (fun f => done f ∨ ∃ va < 2 ^ 32, topten va = i ∧ btmten va < 0 ∧
      m.Resident a va f) m m₁ := by
    apply hfreed.mono
    rintro f (hf | ⟨va, -, -, hlt, -⟩)
    · exact hf
    · omega
  refine Prog.Returns.mono (Prog.wp_forFrom (fun j _ m₂ => Freed a pages (fun f => done f ∨
    ∃ va < 2 ^ 32, topten va = i ∧ btmten va < j ∧ m.Resident a va f) m m₂) ?_ hstart) ?_
  · intro j _ m₂ _ hj hfreed₂
    have hlt : i * 2 ^ 22 + j * 2 ^ 12 < 2 ^ 32 := by omega
    have hentry := table_pte htable (show j < 1024 by omega)
    have heven := hnone _ hlt _ hentry
    -- a page of the table is one of those before or it has entry `j`
    have hnext : ∀ f, (∃ va < 2 ^ 32, topten va = i ∧ btmten va < j + 1 ∧ m.Resident a va f) →
        (∃ va < 2 ^ 32, topten va = i ∧ btmten va < j ∧ m.Resident a va f) ∨
          f ≠ 0 ∧ table j = (f : Int) * 2 := by
      rintro f ⟨va, hva, htop, hbtm, hres⟩
      by_cases hbefore : btmten va < j
      · exact Or.inl ⟨va, hva, htop, hbefore, hres⟩
      · right
        have hnonzero := hres.nonzero
        have hpte := hres.entry
        rw [pte, htop, htable, Option.map_some, Option.some.injEq,
          show btmten va = j by omega] at hpte
        exact ⟨by omega, hpte⟩
    rw [Prog.wp_when]
    split
    case isFalse hzero =>
        apply hfreed₂.mono
        rintro f (hf | hf)
        · exact Or.inl hf
        · rcases hnext f hf with hf | ⟨hne, hf⟩
          · exact Or.inr hf
          · rw [hf, Int.mul_tdiv_cancel _ (by decide)] at hzero
            exact absurd hzero (by omega)
    case isTrue hsome =>
        obtain ⟨q, hq⟩ : ∃ q, table j = q * 2 := ⟨table j / 2, by omega⟩
        rw [hq, Int.mul_tdiv_cancel _ (by decide)] at hsome ⊢
        have hres : m.Resident a (i * 2 ^ 22 + j * 2 ^ 12) q := by
          refine ⟨?_, hsome, hq ▸ hentry⟩
          simp only [PAGE_SIZE]
          omega
        obtain ⟨n, rfl, howns⟩ := howned.resident a _ q hres
        obtain ⟨taken, hless, hgone, hno⟩ := hfreed₂
        have hrange := howns.lt
        simp only [↓Prog.wp_bind, ↓Prog.wp_get]
        apply coremapRemove_wp
        · intro hle hout
          rw [hless.nbits, howned.bits] at hout
          omega
        · intro hout
          rw [hless.maxPageNum] at hout
          omega
        · intro f hf _
          obtain rfl : n = f := by omega
          refine ⟨_, hless.removed n, ?_, ?_⟩
          · rintro f (hf | hf)
            · exact Or.inl (hgone f (Or.inl hf))
            · rcases hnext f hf with hf | ⟨-, hf⟩
              · exact Or.inl (hgone f (Or.inr hf))
              · right
                omega
          · rintro f (hf | rfl)
            · exact hno f hf
            · right
              refine ⟨i, hlow, _, hlt, ?_, hres⟩
              simp only [topten]
              omega
  · intro _ m₂ hfreed₂
    apply hfreed₂.mono
    rintro f (hf | ⟨va, hva, htop, hres⟩)
    · exact Or.inl hf
    · refine Or.inr ⟨va, hva, htop, ?_, hres⟩
      simp only [btmten]
      omega

theorem asDestroyFlush_returns (m : Machine) :
    Prog.Returns asDestroyFlush (fun _ m' => ∃ tlb asid, m' = m.withTlb tlb asid) m := by
  simp only [asDestroyFlush, tlbRead, ↓Prog.wp_bind, ↓Prog.wp_get, ↓Prog.wp_modify,
    ↓Prog.wp_pure, ↓Prog.wp_when]
  split
  case isFalse => exact ⟨m.tlb, (m.tlb 0).pid, rfl⟩
  case isTrue =>
      refine Prog.Returns.mono (tlbFlush_returns _) ?_
      rintro _ m' ⟨tlb, rfl, -⟩
      exact ⟨tlb, 0, rfl⟩

theorem Freed.withTlb (hfreed : Freed a pages done m m₁) (tlb : Nat → TlbEntry) (asid : Nat) :
    Freed a pages done m (m₁.withTlb tlb asid) := by
  obtain ⟨taken, hless, hgone, hno⟩ := hfreed
  exact ⟨taken, hless.withTlb tlb asid, hgone, hno⟩

theorem SlotFrame.lt {top : Nat} (hslot : m.SlotFrame a top f) : top < 1024 := by
  obtain ⟨va, hva, rfl, -⟩ := hslot
  simp only [topten]
  omega

/-- Without swapped pages `as_destroy` gives back the frames of all slots but the first. -/
theorem asDestroy_freed (howned : m.Owned) (hown : m.OwnPages a pages) (hnone : m.NoneSwapped a)
    (rest : Addrspace) :
    Prog.Returns (asDestroy a pages rest)
      (fun _ m' => Freed a pages (fun f => ∃ top, 1 ≤ top ∧ m.SlotFrame a top f) m m') m := by
  have hstart : Freed a pages (fun f => ∃ top, 1 ≤ top ∧ top < 1 ∧ m.SlotFrame a top f) m m := by
    refine ⟨_, Less.refl m, ?_, fun f hf => hf.elim⟩
    rintro f ⟨top, hlow, hhigh, -⟩
    omega
  simp only [asDestroy, setAddrspace, ↓Prog.wp_bind, ↓Prog.wp_get]
  refine Prog.Returns.mono (asDestroyFlush_returns m) ?_
  rintro _ m₁ ⟨tlb, asid, rfl⟩
  refine Prog.Returns.mono (Prog.wp_forFrom (fun i _ m₂ => Freed a pages
    (fun f => ∃ top, 1 ≤ top ∧ top < i ∧ m.SlotFrame a top f) m m₂) ?_
    (hstart.withTlb tlb asid)) ?_
  · intro i _ m₂ hlow hhigh hfreed
    rw [show (m.withTlb tlb asid).addrspace = m.addrspace from rfl]
    have hlast : ∀ f, (∃ top, 1 ≤ top ∧ top < i + 1 ∧ m.SlotFrame a top f) →
        (∃ top, 1 ≤ top ∧ top < i ∧ m.SlotFrame a top f) ∨ m.SlotFrame a i f := by
      rintro f ⟨top, hge, hlt, hslot⟩
      by_cases heq : top = i
      · rw [← heq]
        exact Or.inr hslot
      · exact Or.inl ⟨top, hge, by omega, hslot⟩
    cases htable : (m.addrspace a).firstpt i with
    | none =>
        apply hfreed.mono
        intro f hf
        rcases hlast f hf with hbefore | ⟨va, -, htop, hres⟩
        · exact hbefore
        · have hpte := hres.entry
          rw [pte, htop, htable] at hpte
          cases hpte
    | some table =>
        simp only [↓Prog.wp_bind]
        refine Prog.Returns.mono (hfreed.removeEntries howned hnone htable hlow (by omega)) ?_
        intro _ m₃ hfreed₃
        apply (hfreed₃.mono hlast).kfreePage hown howned.bits
        intro hne
        exact ⟨hne, Or.inr (Or.inr ⟨i, by omega, by rw [htable]; rfl, rfl⟩)⟩
  · intro _ m₂ hfreed
    have hall : Freed a pages (fun f => ∃ top, 1 ≤ top ∧ m.SlotFrame a top f) m m₂ := by
      apply hfreed.mono
      rintro f ⟨top, hge, hslot⟩
      exact ⟨top, hge, hslot.lt, hslot⟩
    refine Prog.Returns.mono (hall.kfreePage hown howned.bits
      (fun hne => ⟨hne, Or.inl rfl⟩)) ?_
    intro _ m₃ hfreed₃
    refine Prog.Returns.mono (hfreed₃.kfreePage hown howned.bits
      (fun hne => ⟨hne, Or.inr (Or.inl rfl)⟩)) ?_
    rintro _ m₄ ⟨taken, hless, hgone, hno⟩
    rw [Prog.wp_modify]
    refine Prog.Returns.mono (asDestroyFlush_returns _) ?_
    rintro _ m₅ ⟨tlb, asid, rfl⟩
    exact ⟨taken, (hless.withAddrspace rest).withTlb tlb asid, hgone, hno⟩

/-- `as_destroy` does not know the bitmap of the swap slots. -/
theorem asDestroy_swapBmp (m : Machine) (a : AsId) (pages : AsPages) (rest : Addrspace) :
    Prog.wp (asDestroy a pages rest) (fun _ m' => m'.swapBmp = m.swapBmp) (fun _ _ => True)
      (fun _ => True) m := by
  refine asDestroy_keeps ?_ ?_ ?_ ?_ rfl
  · exact fun m' i hsame _ => hsame
  · exact fun m' i hsame _ _ => hsame
  · exact fun m' tlb asid hsame => hsame
  · exact fun m' hsame => hsame

/-- No page below 4 MB has a frame. -/
def NoneLow (m : Machine) (a : AsId) : Prop := ∀ va < 2 ^ 22, ∀ f, ¬ m.Resident a va f

theorem Owned.page_eq (howned : m.Owned) {va va' : Nat} (hres : m.Resident a va f)
    (hres' : m.Resident a va' f) : va = va' := by
  obtain ⟨n, hn, howns⟩ := howned.resident a va f hres
  obtain ⟨n', hn', howns'⟩ := howned.resident a va' f hres'
  obtain rfl : n = n' := by omega
  exact howns.va.symm.trans howns'.va

/-- In every state in which the frames and the slots of the address space are its own,
`as_destroy` gives back exactly these exactly if none of its pages is swapped out and none
below 4 MB is in memory. -/
theorem teardown_exact_iff (howned : m.Owned) (hslots : m.SlotsOwned a)
    (hown : m.OwnPages a pages) (rest : Addrspace) :
    TearsDown a pages m (asDestroy a pages rest m) ↔ m.NoneSwapped a ∧ m.NoneLow a := by
  constructor
  · intro htears
    have hnone : m.NoneSwapped a := by
      intro va hva entry hentry hodd
      obtain ⟨s, rfl, hmarked⟩ := hslots va hva entry hentry hodd
      have hkept := asDestroy_swapBmp m a pages rest
      unfold Prog.wp at hkept
      generalize asDestroy a pages rest m = result at htears hkept
      cases result with
      | error code m' => exact htears
      | panic reason => exact htears
      | ok value m' =>
          have hswap : m'.swapBmp = m.swapBmp := hkept
          have hgone : TornDown a pages m m' := htears
          rw [← hswap] at hmarked
          exact ((hgone.slots s).mp hmarked).2 ⟨va, hva, hentry⟩
    refine ⟨hnone, ?_⟩
    intro va hva q hres
    obtain ⟨f, rfl, howns⟩ := howned.resident a va q hres
    obtain ⟨_, m', hok, taken, hless, -, hno⟩ :=
      (asDestroy_freed howned hown hnone rest).exists_ok
    rw [hok] at htears
    have hgone : TornDown a pages m m' := htears
    have hnamed : m.NamesFrame a f := ⟨va, by omega, hres⟩
    have hforeign : ¬ m.OwnFrame a pages f := fun howns' => hown.apart f howns' hnamed
    have hkept : ¬ taken f := by
      intro htaken
      rcases hno f htaken with howns' | ⟨top, htop, va', hva', rfl, hres'⟩
      · exact hforeign howns'
      · have heq := howned.page_eq hres hres'
        rw [← heq] at htop
        simp only [topten] at htop
        omega
    have hstill := howns.marked
    rw [← hless.isset f hkept] at hstill
    exact ((hgone.frames f hforeign).mp hstill).2 hnamed
  · rintro ⟨hnone, hlow⟩
    obtain ⟨_, m', hok, taken, hless, hgone, hno⟩ :=
      (asDestroy_freed howned hown hnone rest).exists_ok
    rw [hok]
    have htaken : ∀ f, ¬ m.OwnFrame a pages f → (taken f ↔ m.NamesFrame a f) := by
      intro f hforeign
      constructor
      · intro hf
        obtain ⟨top, -, va, hva, -, hres⟩ := (hno f hf).resolve_left hforeign
        exact ⟨va, hva, hres⟩
      · rintro ⟨va, hva, hres⟩
        refine hgone f ⟨topten va, ?_, va, hva, rfl, hres⟩
        by_contra hzero
        refine hlow va ?_ f hres
        simp only [topten] at hzero
        omega
    refine ⟨?_, ?_, ?_⟩
    · intro f hforeign
      by_cases hf : m.NamesFrame a f
      · rw [hless.clear f ((htaken f hforeign).mpr hf)]
        simp [hf]
      · rw [hless.isset f (fun h => hf ((htaken f hforeign).mp h))]
        simp [hf]
    · intro s
      rw [hless.swapBmp]
      refine ⟨fun hmarked => ⟨hmarked, ?_⟩, fun hboth => hboth.1⟩
      rintro ⟨va, hva, hentry⟩
      exact hnone va hva _ hentry (by omega)
    · intro f hforeign hf
      exact hless.coremap f (fun h => hf ((htaken f hforeign).mp h))

/-! Two address spaces with one page each. -/

private def oneEntry (entry : Int) : Nat → Option (Nat → Int) := fun top =>
  if top = 1 then some (fun j => if j = 0 then entry else 0) else none

/-- Address space 0 has this entry for its page and address space 1 has its page in frame 3.
The frames 5 and 6 hold the tables of address space 0. -/
private def twoSpaces (entry : Int) : Machine :=
  { spacious (twoRegions 0x400000 1 0x10000000 1) (fun _ => 0) with
    coremap := fun i =>
      { va := if i = 3 ∨ i = 4 then 0x400000 else if i = 5 then 0x80006000
          else if i = 6 then 0x80007000 else 0
        pa := 4096 + i * PAGE_SIZE
        addr := if i = 3 then some 1 else some 0
        npages := 1
        time := 0
        valid := true
        locked := false }
    gblBmp := { nbits := 4096, v := fun ix => if ix = 0 then 127#8 else 0#8 }
    swapBmp := (Bitmap.bitmapCreate 4).mark 3
    addrspace := fun a => { twoRegions 0x400000 1 0x10000000 1 with
      firstpt := if a = 0 then oneEntry entry else if a = 1 then oneEntry 6 else fun _ => none } }

private def spaceZero : AsPages := ⟨fun _ => 0x80006000, 0x80007000, 0⟩

private theorem oneEntry_page {entry q : Int} (hva : va % PAGE_SIZE = 0) (hq : q ≠ 0)
    (hpte : (oneEntry entry (topten va)).map (fun table => table (btmten va)) = some (q * 2)) :
    va = 0x400000 ∧ entry = q * 2 := by
  unfold oneEntry at hpte
  split at hpte
  case isFalse => cases hpte
  case isTrue htop =>
      simp only [Option.map_some, Option.some.injEq] at hpte
      split at hpte
      case isFalse => omega
      case isTrue hbtm =>
          refine ⟨?_, hpte⟩
          simp only [topten, btmten, PAGE_SIZE] at htop hbtm hva
          omega

private theorem firstpt_zero (entry : Int) (ha : a = 0) :
    ((twoSpaces entry).addrspace a).firstpt = oneEntry entry := if_pos ha

private theorem firstpt_one (entry : Int) (hne : a ≠ 0) (ha : a = 1) :
    ((twoSpaces entry).addrspace a).firstpt = oneEntry 6 := (if_neg hne).trans (if_pos ha)

private theorem firstpt_other (entry : Int) (hne : a ≠ 0) (hne' : a ≠ 1) :
    ((twoSpaces entry).addrspace a).firstpt = fun _ => none := (if_neg hne).trans (if_neg hne')

private theorem coremap_va (entry : Int) (hf : f = 3 ∨ f = 4) :
    ((twoSpaces entry).coremap f).va = 0x400000 := if_pos hf

private theorem twoSpaces_resident {entry q : Int} (hres : (twoSpaces entry).Resident a va q) :
    va = 0x400000 ∧ (a = 0 ∧ entry = q * 2 ∨ a = 1 ∧ q = 3) := by
  obtain ⟨hva, hq, hpte⟩ := hres
  by_cases hzero : a = 0
  · rw [pte, firstpt_zero entry hzero] at hpte
    obtain ⟨hpage, hentry⟩ := oneEntry_page hva hq hpte
    exact ⟨hpage, Or.inl ⟨hzero, hentry⟩⟩
  · by_cases hone : a = 1
    · rw [pte, firstpt_one entry hzero hone] at hpte
      obtain ⟨hpage, hentry⟩ := oneEntry_page hva hq hpte
      exact ⟨hpage, Or.inr ⟨hone, by omega⟩⟩
    · rw [pte, firstpt_other entry hzero hone] at hpte
      cases hpte

private theorem twoSpaces_marked (entry : Int) (hf : f < 7) :
    (twoSpaces entry).gblBmp.bitmapIsset f = true := by
  have hmarked : ∀ i < 7, (127#8).getLsbD i = true := by decide
  have hword : (twoSpaces entry).gblBmp.v (f / 8) = 127#8 := if_pos (by omega)
  rw [Bitmap.bitmapIsset_eq, BitWords.bit, hword, Nat.mod_eq_of_lt (by omega)]
  exact hmarked f hf

private theorem twoSpaces_owned {entry : Int} (hentry : entry = 7 ∨ entry = 8) :
    (twoSpaces entry).Owned where
  base := by
    show 0 < 4096
    decide
  room := by
    show 4096 + 4096 * PAGE_SIZE ≤ 2 ^ 32
    decide
  bits := rfl
  reserved i hi := twoSpaces_marked entry (by omega)
  pa _ _ _ := rfl
  resident a va q hres := by
    obtain ⟨rfl, ⟨rfl, hq⟩ | ⟨rfl, rfl⟩⟩ := twoSpaces_resident hres
    · obtain rfl : q = 4 := by omega
      refine ⟨4, rfl, show 4 < 4096 by decide, twoSpaces_marked entry (by decide), ?_, rfl⟩
      rw [coremap_va entry (Or.inr rfl)]
      decide
    · refine ⟨3, rfl, show 3 < 4096 by decide, twoSpaces_marked entry (by decide), ?_, rfl⟩
      rw [coremap_va entry (Or.inl rfl)]
      decide

private theorem twoSpaces_own {entry : Int} (hentry : entry = 7 ∨ entry = 8) :
    (twoSpaces entry).OwnPages 0 spaceZero where
  apart := by
    rintro f hown ⟨va, -, hres⟩
    obtain ⟨-, ⟨-, hq⟩ | ⟨hone, -⟩⟩ := twoSpaces_resident hres
    · obtain rfl : f = 4 := by omega
      rw [OwnFrame, OwnPage, coremap_va entry (Or.inr rfl)] at hown
      obtain ⟨-, hfirst | hself | ⟨top, -, -, htable⟩⟩ := hown
      · exact absurd hfirst (by decide)
      · exact absurd hself (by decide)
      · exact absurd htable (show ¬ 0x400000 = 0x80006000 by decide)
    · exact absurd hone (by decide)
  behind := fun hown => hown.1 rfl

/-- The page in frame 4 is given back. -/
theorem teardown_of_resident_page :
    TearsDown 0 spaceZero (twoSpaces 8)
      (asDestroy 0 spaceZero (twoRegions 0 0 0 0) (twoSpaces 8)) := by
  have hentries : ∀ va entry, (twoSpaces 8).pte 0 va = some entry → entry = 8 ∨ entry = 0 := by
    intro va entry hpte
    rw [pte, firstpt_zero 8 rfl, oneEntry] at hpte
    split at hpte
    case isFalse => cases hpte
    case isTrue =>
        simp only [Option.map_some, Option.some.injEq] at hpte
        split at hpte
        case isTrue => exact Or.inl hpte.symm
        case isFalse => exact Or.inr hpte.symm
  have hslots : (twoSpaces 8).SlotsOwned 0 := by
    intro va _ entry hpte hodd
    rcases hentries va entry hpte with rfl | rfl
    · exact absurd hodd (by decide)
    · exact absurd hodd (by decide)
  have howned := @twoSpaces_owned 8 (Or.inr rfl)
  have hown := @twoSpaces_own 8 (Or.inr rfl)
  have hnone : (twoSpaces 8).NoneSwapped 0 := by
    intro va _ entry hpte hodd
    rcases hentries va entry hpte with rfl | rfl
    · exact absurd hodd (by decide)
    · exact absurd hodd (by decide)
  have hlow : (twoSpaces 8).NoneLow 0 := by
    intro va hva q hres
    rw [(twoSpaces_resident hres).1] at hva
    exact absurd hva (by decide)
  rw [teardown_exact_iff howned hslots hown (twoRegions 0 0 0 0)]
  exact ⟨hnone, hlow⟩

/-- Address space 0 has its page in slot 3.  The frame with that number, where address space 1
has its page, is freed, and the slot is not. -/
theorem teardown_frees_foreign_frame :
    (twoSpaces 7).Owned ∧ (twoSpaces 7).OwnPages 0 spaceZero ∧
    (twoSpaces 7).pte 0 0x400000 = some (3 * 2 + 1) ∧
    (twoSpaces 7).swapBmp.bitmapIsset 3 = true ∧ (twoSpaces 7).Resident 1 0x400000 3 ∧
    ∃ m', asDestroy 0 spaceZero (twoRegions 0 0 0 0) (twoSpaces 7) = .ok () m' ∧
      m'.swapBmp.bitmapIsset 3 = true ∧ m'.gblBmp.bitmapIsset 3 = false ∧
      (m'.coremap 3).valid = false := by
  have hok : (asDestroy 0 spaceZero (twoRegions 0 0 0 0) (twoSpaces 7)).returned = some () := by
    decide +kernel
  have hslot : ((asDestroy 0 spaceZero (twoRegions 0 0 0 0) (twoSpaces 7)).stateD
      (twoSpaces 7)).swapBmp.bitmapIsset 3 = true := by decide +kernel
  have hframe : ((asDestroy 0 spaceZero (twoRegions 0 0 0 0) (twoSpaces 7)).stateD
      (twoSpaces 7)).gblBmp.bitmapIsset 3 = false := by decide +kernel
  have hvalid : (((asDestroy 0 spaceZero (twoRegions 0 0 0 0) (twoSpaces 7)).stateD
      (twoSpaces 7)).coremap 3).valid = false := by decide +kernel
  exact ⟨twoSpaces_owned (Or.inl rfl), twoSpaces_own (Or.inl rfl), rfl, rfl,
    ⟨by decide, by decide, rfl⟩, _, Result.eq_ok_of_returned (twoSpaces 7) hok, hslot, hframe,
    hvalid⟩

end OS161.VM.Machine
