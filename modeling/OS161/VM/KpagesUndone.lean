import OS161.VM.FrameOwnership
import OS161.VM.KernelBlocks

namespace OS161.VM.Machine

open OS161.Data
open OS161.Kern
open OS161.Lib

/-! `alloc_kpages` and the `free_kpages` that follows it, with other calls in
between. -/

/-- One call that comes back.  Frames in `kept` are not given back, nor the
three that no page table names. -/
inductive KpagesStep (kept : Nat → Prop) : Machine → Machine → Prop where
  | allocKpages {m m' : Machine} (hdone : allocKpages npages unset m = .ok a m') :
      KpagesStep kept m m'
  | freeKpages {m m' : Machine} (hkept : ∀ i, kept i → (m.coremap i).va ≠ addr)
      (hdone : freeKpages addr m = .ok () m') : KpagesStep kept m m'
  | vmFault {m m' : Machine} (hmiss : m.translate address = none)
      (hdone : vmFault depth faulttype address m = .ok () m') : KpagesStep kept m m'
  | vmFaultError {m m' : Machine} (hmiss : m.translate address = none)
      (hdone : vmFault depth faulttype address m = .error code m') : KpagesStep kept m m'
  | evict {m m' : Machine} (hdone : evict (kernelTouch depth) vaddr m = .ok done m') :
      KpagesStep kept m m'
  | swapIn {m m' : Machine} (hdone : swapIn (kernelTouch depth) vaddr slot m = .ok done m') :
      KpagesStep kept m m'
  | asDestroy {m m' : Machine} {pages : AsPages} {rest : Addrspace}
      (hnames : ∀ i, m.Names a i → 3 ≤ i ∧ ¬ kept i)
      (hkept : ∀ i, kept i → ¬ pages.Has (m.coremap i).va)
      (hrest : ∀ t, 512 ≤ t → t < 768 → rest.firstpt t = none)
      (hdone : asDestroy a pages rest m = .ok () m') : KpagesStep kept m m'
  /-- Threads and address spaces come and go, and programs run. -/
  | elsewhere {m : Machine} (ram : Nat → Byte) (tlb : Nat → TlbEntry) (asid : Nat)
      (tVmspace : Option AsId) (pid : Nat) (addrspace : AsId → Addrspace)
      (htables : ∀ a t, 512 ≤ t → t < 768 → (addrspace a).firstpt t = none) :
      KpagesStep kept m { m with
        ram := ram
        tlb := tlb
        asid := asid
        tVmspace := tVmspace
        pid := pid
        addrspace := addrspace }

/-- The frames that were clear before the call and are marked after it. -/
def TakenBetween (m m₁ : Machine) (i : Nat) : Prop :=
  m.gblBmp.bitmapIsset i = false ∧ m₁.gblBmp.bitmapIsset i = true

/-- The call from `m₂` to `m₃` gives back what the one from `m` to `m₁` took, and
nothing else. -/
def Undoes (m m₁ m₂ m₃ : Machine) : Prop :=
  ∀ i, m₃.gblBmp.bitmapIsset i = true ↔
    m₂.gblBmp.bitmapIsset i = true ∧ ¬ TakenBetween m m₁ i

variable {m m' : Machine} {start frames top head n index : Nat}

/-! The search for a row of clear frames. -/

/-- Where the search stops with enough frames it has the first frames after a
marked one. -/
theorem scanFree_row {npages turns i count : Nat} (hcount : count < i)
    (hrow : ∀ k, i - count ≤ k → k < i → m.gblBmp.bitmapIsset k = false)
    (hmarked : m.gblBmp.bitmapIsset (i - count - 1) = true) (hfew : count < npages)
    (hfound : (m.scanFree npages turns i count).2 = npages) :
    (m.scanFree npages turns i count).1 < i + turns ∧
    npages ≤ (m.scanFree npages turns i count).1 ∧
    (∀ k, (m.scanFree npages turns i count).1 + 1 - npages ≤ k →
      k ≤ (m.scanFree npages turns i count).1 → m.gblBmp.bitmapIsset k = false) ∧
    m.gblBmp.bitmapIsset ((m.scanFree npages turns i count).1 - npages) = true := by
  induction turns generalizing i count with
  | zero =>
      simp only [scanFree] at hfound
      omega
  | succ turns ih =>
      unfold scanFree at hfound ⊢
      cases hbit : m.gblBmp.bitmapIsset i with
      | true =>
          simp only [hbit, if_true] at hfound ⊢
          have hnext := ih (by omega) (by omega) (by simpa using hbit) (by omega) hfound
          exact ⟨by omega, hnext.2⟩
      | false =>
          have hextended : ∀ k, i + 1 - (count + 1) ≤ k → k < i + 1 →
              m.gblBmp.bitmapIsset k = false := by
            intro k hlow hhigh
            by_cases heq : k = i
            · rw [heq]
              exact hbit
            · exact hrow k (by omega) (by omega)
          have hbefore : m.gblBmp.bitmapIsset (i + 1 - (count + 1) - 1) = true := by
            rw [show i + 1 - (count + 1) - 1 = i - count - 1 by omega]
            exact hmarked
          simp only [hbit, Bool.false_eq_true, if_false] at hfound ⊢
          by_cases henough : count + 1 = npages
          · rw [if_pos henough]
            refine ⟨by omega, by omega, ?_, ?_⟩
            · intro k hlow hhigh
              exact hextended k (by omega) (by omega)
            · rw [show i - npages = i + 1 - (count + 1) - 1 by omega]
              exact hbefore
          · rw [if_neg henough] at hfound ⊢
            have hnext := ih (by omega) hextended hbefore (by omega) hfound
            exact ⟨by omega, hnext.2⟩

/-- A row of clear frames that are all there, right after a marked frame. -/
structure Row (frames index npages : Nat) (m : Machine) : Prop where
  ge : 3 ≤ index
  le : index + npages ≤ frames
  clear : ∀ k, index ≤ k → k < index + npages → m.gblBmp.bitmapIsset k = false
  before : m.gblBmp.bitmapIsset (index - 1) = true

theorem Framed.scanFree (hframed : m.Framed start frames) (hpages : 0 < npages)
    (unset : Nat) (hframes : 0 < frames)
    (hfound : (m.scanFree npages m.maxPageNum 0 unset).2 = npages) :
    m.Row frames ((m.scanFree npages m.maxPageNum 0 unset).1 + 1 - npages) npages := by
  have hmax := hframed.maxPageNum
  have hzero := hframed.reserved 0 (by decide)
  have hfirst : m.scanFree npages m.maxPageNum 0 unset =
      m.scanFree npages (frames - 1) 1 0 := by
    obtain ⟨k, rfl⟩ : ∃ k, frames = k + 1 := ⟨frames - 1, by omega⟩
    rw [hmax, scanFree, hzero]
    rfl
  rw [hfirst] at hfound ⊢
  obtain ⟨hlt, hle, hclear, hmarked⟩ := @scanFree_row m npages (frames - 1) 1 0 (by omega)
    (by omega) (by simpa using hzero) hpages hfound
  refine ⟨?_, by omega, ?_, ?_⟩
  · by_contra hlow
    have hset := hframed.reserved ((m.scanFree npages (frames - 1) 1 0).1 + 1 - npages)
      (by omega)
    rw [hclear _ (by omega) (by omega)] at hset
    cases hset
  · intro k hlow hhigh
    exact hclear k hlow (by omega)
  · rw [show (m.scanFree npages (frames - 1) 1 0).1 + 1 - npages - 1 =
      (m.scanFree npages (frames - 1) 1 0).1 - npages by omega]
    exact hmarked

theorem Row.le_top (hrow : m.Row frames index npages) (hlaid : m.Laid start frames top)
    (hpages : 0 < npages) : index ≤ top := by
  by_contra hgt
  have hge := hrow.ge
  have hle := hrow.le
  have hset := hrow.before
  rw [hlaid.unused (index - 1) (by omega) (by omega)] at hset
  cases hset

/-! Taking frames. -/

theorem takeFrame_fill (hroom : start + frames * PAGE_SIZE ≤ 0x20000000)
    (hframed : m.Framed start frames) (hge : 3 ≤ index + i) (hlt : index + i < frames) :
    Prog.wp (takeFrame index i)
      (fun _ m' => m.Fill (index + i) (kva start (index + i)) m') (fun _ _ => False)
      (fun _ => True) m := by
  have hpa := hframed.pa (index + i) hge hlt
  simp only [takeFrame, onGblBmp, ↓Prog.wp_bind, ↓Prog.wp_zoom, Bitmap.wp_bitmapMark]
  split
  case isFalse => trivial
  case isTrue =>
  split
  case isFalse => trivial
  case isTrue =>
      simp only [↓Prog.wp_get, hpa, paddrToKvaddr_frame hroom hlt]
      have htaken : Taken start frames (start + (index + i) * PAGE_SIZE) (index + i)
          { m with gblBmp := m.gblBmp.mark (index + i) } := by
        refine ⟨hge, hlt, rfl, ?_⟩
        simp [Bitmap.isset_mark]
      have hindex := htaken.ptIndex (by omega) hframed.memStart
      rw [wp_ptInsert (m := { m with gblBmp := m.gblBmp.mark (index + i) }) hindex
        htaken.marked]
      refine ⟨rfl, rfl, rfl, ?_, ?_, ?_, fun _ _ _ _ h => h⟩
      · intro k
        refine pa_update ?_ k
        exact hpa.symm
      · intro k
        exact va_update k
      · intro k hne
        simp [inserted, hne]

/-- After `turns` turns of the loop the first frames of the row are the
kernel's. -/
structure Taking (m : Machine) (start index turns : Nat) (m' : Machine) : Prop where
  bits : ∀ k, m'.gblBmp.bitmapIsset k = true ↔
    m.gblBmp.bitmapIsset k = true ∨ index ≤ k ∧ k < index + turns
  va : ∀ k, index ≤ k → k < index + turns → (m'.coremap k).va = kva start k

theorem Fill.taking (hfill : m.Fill (index + turns) (kva start (index + turns)) m')
    (htaking : Taking m₀ start index turns m) : Taking m₀ start index (turns + 1) m' := by
  refine ⟨?_, ?_⟩
  · intro k
    rw [hfill.bits, Bitmap.isset_mark, Bool.or_eq_true, htaking.bits, decide_eq_true_eq,
      or_assoc]
    apply or_congr_right
    omega
  · intro k hlow hhigh
    rw [hfill.va]
    split
    case isTrue heq => rw [heq]
    case isFalse hne => exact htaking.va k hlow (by omega)

/-- The frames of a row become a block; what was laid out before stays. -/
theorem takeFrames_laid (hroom : start + frames * PAGE_SIZE ≤ 0x20000000)
    (hholds : m.Holds start frames head n) (hrow : m.Row frames index npages)
    (hpages : 0 < npages) :
    Prog.wp (Prog.forFrom (fun i _ => takeFrame index i) npages 0 ())
      (fun _ m' => m'.Holds start frames head n ∧ Taking m start index npages m')
      (fun _ _ => False) (fun _ => True) m := by
  obtain ⟨⟨top, hlaid⟩, hblock⟩ := hholds
  refine Prog.wp_mono (Prog.wp_forFrom (fun j _ m' =>
    (∃ top, index + j ≤ top ∧ m'.Laid start frames top) ∧ m'.Block start head n ∧
      Taking m start index j m') ?_ ?_) ?_ (fun _ _ h => h) (fun _ h => h)
  · rintro j _ m₁ - hj ⟨⟨top₁, hle₁, hlaid₁⟩, hblock₁, htaking⟩
    have hge := hrow.ge
    have hle := hrow.le
    refine Prog.wp_mono (takeFrame_fill hroom hlaid₁.toFramed (by omega) (by omega)) ?_
      (fun _ _ h => h) (fun _ h => h)
    intro _ m₂ hfill
    have hclear : m₁.gblBmp.bitmapIsset (index + j) = false := by
      rw [Bool.eq_false_iff, Ne, htaking.bits, hrow.clear _ (by omega) (by omega)]
      simp
    exact ⟨⟨_, by omega, hfill.laid hlaid₁ (ownVa_kva start frames _) hle₁⟩, hfill.block hblock₁ hclear,
      hfill.taking htaking⟩
  · refine ⟨⟨top, hrow.le_top hlaid hpages, hlaid⟩, hblock, ?_, ?_⟩
    · intro k
      simp
    · intro k hlow hhigh
      omega
  · rintro _ m' ⟨⟨top', -, hlaid'⟩, hblock', htaking⟩
    rw [Nat.zero_add] at htaking
    exact ⟨⟨⟨top', hlaid'⟩, hblock'⟩, htaking⟩

/-- What `alloc_kpages` returns is the address of a new block. -/
structure Allocated (m : Machine) (start frames npages a head : Nat) (m' : Machine) :
    Prop where
  pages : 0 < npages
  address : a = kva start head
  ge : 3 ≤ head
  le : head + npages ≤ frames
  clear : ∀ k, head ≤ k → k < head + npages → m.gblBmp.bitmapIsset k = false
  bits : ∀ k, m'.gblBmp.bitmapIsset k = true ↔
    m.gblBmp.bitmapIsset k = true ∨ head ≤ k ∧ k < head + npages
  block : m'.Block start head npages

theorem sameMap_npages (m : Machine) (index npages : Nat) (hpages : 0 < npages) :
    SameMap m { m with
      coremap := Function.update m.coremap index { m.coremap index with npages := npages } } := by
  refine ⟨rfl, rfl, rfl, pa_update rfl, ?_, ?_, fun _ _ _ _ h => h⟩
  · intro i
    simp only [va_update]
    split
    case isTrue heq => rw [heq]
    case isFalse => rfl
  · intro i hne
    by_cases heq : i = index
    · simp only [heq, Function.update_self]
      omega
    · simpa [heq] using hne

section Alloc

variable (haligned : start % PAGE_SIZE = 0)
variable (hroom : start + frames * PAGE_SIZE ≤ 0x20000000)

include haligned

theorem pageFrame_frame (i : Nat) : pageFrame (start + i * PAGE_SIZE) = start + i * PAGE_SIZE := by
  simp only [pageFrame, PAGE_SIZE] at haligned ⊢
  omega

include hroom

theorem insertTook_holds (hholds : m.Holds start frames head n) (htook : m.Took temp index m') :
    Prog.wp (ptInsert (paddrToKvaddr temp) temp)
      (fun _ m₂ => m₂.Holds start frames head n ∧
        (pageFrame temp ≠ 0 → ∃ new, pageFrame temp = start + new * PAGE_SIZE ∧
          m.Allocated start frames 1 (kva start new) new m₂))
      (fun _ _ => False) (fun _ => True) (m'.withNpages index) := by
  have hfrom : TookFrom (Holds start frames head n) temp index m' := ⟨m, hholds, htook⟩
  obtain ⟨hframed, htaken⟩ := hfrom.taken
  have hframed₁ : (m'.withNpages index).Framed start frames :=
    hframed.reframed ⟨rfl, rfl, rfl, fun _ _ h => h, pa_update rfl⟩
  have htaken₁ : Taken start frames temp index (m'.withNpages index) :=
    ⟨htaken.ge, htaken.lt, htaken.temp, htaken.marked⟩
  have hkva : paddrToKvaddr temp = kva start index := by
    rw [htaken.temp]
    exact paddrToKvaddr_frame hroom htaken.lt
  have hentry : ∀ k, index ≤ k → k < index + 1 → k = index := by
    intro k hlow hhigh
    omega
  rw [htaken₁.ptInsert (by omega) hframed₁, hkva]
  refine ⟨hfrom.holds (ownVa_kva start frames index) rfl rfl rfl ?_ ?_ (fun _ _ _ _ h => h), ?_⟩
  · simp [inserted]
  · intro i hne
    simp [inserted, withNpages, hne]
  · intro _
    refine ⟨index, ?_, by decide, rfl, htaken.ge, htaken.lt, ?_, ?_, ?_, ?_, ?_⟩
    · rw [htaken.temp]
      exact pageFrame_frame haligned index
    · intro k hlow hhigh
      rw [hentry k hlow hhigh]
      exact htook.lowest.clear
    · intro k
      show m'.gblBmp.bitmapIsset k = true ↔ _
      rw [htook.eq, took, Bitmap.isset_mark, Bool.or_eq_true, decide_eq_true_eq]
      apply or_congr_right
      omega
    · intro k hlow hhigh
      rw [hentry k hlow hhigh]
      exact htaken.marked
    · intro k hlow hhigh
      rw [hentry k hlow hhigh]
      simp [inserted]
    · intro _
      simp [inserted, withNpages]

theorem takeRow_holds (hholds : m.Holds start frames head n) (hrow : m.Row frames index npages)
    (hpages : 0 < npages) :
    Prog.wp (Prog.forFrom (fun i _ => takeFrame index i) npages 0 ())
      (fun _ m₁ => Prog.wp (setCoremap index fun e => { e with npages := npages })
        (fun _ m₂ => m₂.Holds start frames head n ∧
          (pageFrame (m₂.coremap index).pa ≠ 0 →
            ∃ new, pageFrame (m₂.coremap index).pa = start + new * PAGE_SIZE ∧
              m.Allocated start frames npages (kva start new) new m₂))
        (fun _ _ => False) (fun _ => True) m₁)
      (fun _ _ => False) (fun _ => True) m := by
  have hge := hrow.ge
  have hle := hrow.le
  refine Prog.wp_mono (takeFrames_laid hroom hholds hrow hpages) ?_ (fun _ _ h => h)
    (fun _ h => h)
  rintro _ m₁ ⟨hholds₁, htaking⟩
  have hholds₂ := hholds₁.sameMap (sameMap_npages m₁ index npages hpages)
  refine ⟨hholds₂, ?_⟩
  intro _
  obtain ⟨top, hlaid⟩ := hholds₂.1
  refine ⟨index, ?_, hpages, rfl, hge, hle, hrow.clear, htaking.bits, ?_, ?_, ?_⟩
  · rw [hlaid.pa index hge (by omega)]
    exact pageFrame_frame haligned index
  · intro k hlow hhigh
    exact (htaking.bits k).mpr (Or.inr ⟨hlow, hhigh⟩)
  · intro k hlow hhigh
    rw [(sameMap_npages m₁ index npages hpages).va k]
    exact htaking.va k hlow hhigh
  · intro _
    simp only [Function.update_self]
    omega

theorem getppages_holds (hholds : m.Holds start frames head n) (unset : Unset) :
    Prog.wp (getppages npages unset)
      (fun pa m' => m'.Holds start frames head n ∧
        (pa ≠ 0 → ∃ new, pa = start + new * PAGE_SIZE ∧
          m.Allocated start frames npages (kva start new) new m'))
      (fun _ _ => False) (fun _ => True) m := by
  simp only [getppages, ↓Prog.wp_bind, ↓Prog.wp_assert, ↓Prog.wp_ite]
  split
  case isFalse => trivial
  case isTrue hpages =>
  split
  case isTrue hone =>
      refine Prog.wp_mono (getSinglepage_holds hholds) ?_ (fun _ _ h => h) (fun _ h => h)
      intro r m₁ hr
      simp only [↓Prog.wp_get, setCoremap, ↓Prog.wp_modify, ↓Prog.wp_pure]
      by_cases hfound : r.1 = 0
      · rw [if_neg (by simpa using hfound)] at hr
        have hindex : (if r.1 = 0 ∧ r.2 = 0 then unset.index else r.2) = unset.index :=
          if_pos ⟨hfound, hr.2⟩
        rw [hindex, hr.1, if_pos hfound]
        split
        case isFalse => trivial
        case isTrue =>
            exact ⟨hholds.sameMap (sameMap_npages m _ npages hpages), fun hne => absurd rfl hne⟩
      · rw [if_pos hfound] at hr
        have hindex : (if r.1 = 0 ∧ r.2 = 0 then unset.index else r.2) = r.2 :=
          if_neg (fun h => hfound h.1)
        rw [hindex, if_neg hfound]
        split
        case isFalse => trivial
        case isTrue =>
            rw [hone]
            exact insertTook_holds haligned hroom hholds hr
  case isFalse hmany =>
      simp only [↓Prog.wp_get, ↓Prog.wp_pure]
      split
      case isTrue => exact ⟨hholds, fun hne => absurd rfl hne⟩
      case isFalse hfound =>
          rw [Ne, not_not] at hfound
          obtain ⟨top, hlaid⟩ := hholds.1
          have hrow := hlaid.toFramed.scanFree hpages unset.count
            (Nat.lt_of_lt_of_le (by decide) hlaid.three) hfound
          rw [hfound]
          exact takeRow_holds haligned hroom hholds hrow hpages

theorem allocKpages_holds (hholds : m.Holds start frames head n) (unset : Unset) :
    Prog.wp (allocKpages npages unset)
      (fun a m' => m'.Holds start frames head n ∧
        (a ≠ 0 → ∃ new, m.Allocated start frames npages a new m'))
      (fun _ _ => False) (fun _ => True) m := by
  simp only [allocKpages, ↓Prog.wp_bind]
  refine Prog.wp_mono (getppages_holds haligned hroom hholds unset) ?_ (fun _ _ h => h)
    (fun _ h => h)
  rintro pa m' ⟨hholds', hnew⟩
  simp only [↓Prog.wp_ite, ↓Prog.wp_pure]
  split
  case isTrue => exact ⟨hholds', fun hne => absurd rfl hne⟩
  case isFalse hne =>
      refine ⟨hholds', ?_⟩
      intro _
      obtain ⟨new, rfl, hallocated⟩ := hnew hne
      have hle := hallocated.le
      have hpages := hallocated.pages
      refine ⟨new, ?_⟩
      rw [paddrToKvaddr_frame hroom (by omega)]
      exact hallocated

end Alloc

/-! Giving frames back. -/

theorem release_removed (haligned : start % PAGE_SIZE = 0) (hframed : m.Framed start frames)
    (index : Nat) : m.Release index (m.removed index) where
  memStart := rfl
  maxPageNum := rfl
  nbits := by
    unfold removed
    dsimp only
    split
    case isTrue => rfl
    case isFalse => rfl
  bits i := isset_removed m index i
  pa i hlow hi := by
    by_cases heq : i = index
    · rw [hframed.maxPageNum, heq] at hi
      rw [heq] at hlow ⊢
      simp only [removed, Function.update_self]
      rw [hframed.pa index hlow hi]
      exact pageFrame_frame haligned index
    · simp only [removed, Function.update_of_ne heq]
  va i := by
    exact va_update i
  npages i hne := by
    simp only [removed, Function.update_of_ne hne]
  tables _ _ _ _ hnone := hnone

/-- `free_kpages` of the block's address finds its first frame, and gives back
that frame only. -/
theorem freeKpages_head (hholds : m.Holds start frames head n) (hn : 0 < n)
    (hge : 3 ≤ head) (hlt : head < frames) :
    Prog.Returns (freeKpages (kva start head)) (fun _ m' => m' = m.removed head) m := by
  obtain ⟨⟨top, hlaid⟩, hblock⟩ := hholds
  have hva := hblock.va head (by omega) (by omega)
  have hmarked := hblock.marked head (by omega) (by omega)
  have htop : head < top := by
    by_contra hle
    rw [hlaid.unused head (by omega) hlt] at hmarked
    cases hmarked
  have hfind : m.findVa (kva start head) (m.maxPageNum - 3) 3 = head := by
    rw [hlaid.maxPageNum]
    apply findVa_eq hva hge (by omega)
    intro k hlow hhigh heq
    have hsame := hlaid.own k hlow (by omega) (by omega) head hlt heq
    omega
  have hbits := hlaid.bits
  simp only [freeKpages, ↓Prog.wp_bind, ↓Prog.wp_get, ↓Prog.wp_when, hfind, if_pos hva]
  apply freeRun_wp
  · intro _ hlarge
    omega
  · intro hlarge
    rw [hlaid.maxPageNum] at hlarge
    omega
  · intro hzero
    exact absurd hzero (hblock.npages hn)
  · intro _ _
    rfl

/-! Runs. -/

theorem coremapInit_laid (hempty : ∀ a t, 512 ≤ t → t < 768 → (m.addrspace a).firstpt t = none)
    (hroom : firstaddr + 3 * PAGE_SIZE ≤ lastaddr) (hlast : lastaddr < 2 ^ 32) :
    Prog.wp (coremapInit firstaddr lastaddr)
      (fun _ m' => m'.Laid (firstaddr + 3 * PAGE_SIZE)
        ((lastaddr - (firstaddr + 3 * PAGE_SIZE)) / PAGE_SIZE) 3)
      (fun _ _ => False) (fun _ => True) m := by
  have hpages : (lastaddr + 2 ^ 32 - (firstaddr + 3 * PAGE_SIZE)) % 2 ^ 32 =
      lastaddr - (firstaddr + 3 * PAGE_SIZE) := by
    omega
  have hframed := @coremapInit_framed m _ _ hroom hlast
  simp only [coremapInit, onGblBmp, ↓Prog.wp_bind, ↓Prog.wp_modify, ↓Prog.wp_zoom,
    Bitmap.wp_bitmapMark, hpages] at hframed ⊢
  split
  case isFalse => trivial
  case isTrue hzero =>
  rw [if_pos hzero] at hframed
  split
  case isFalse => trivial
  case isTrue hfirst =>
  rw [if_pos hfirst] at hframed
  split
  case isFalse => trivial
  case isTrue hone =>
  rw [if_pos hone] at hframed
  split
  case isFalse => trivial
  case isTrue hsecond =>
  rw [if_pos hsecond] at hframed
  split
  case isFalse => trivial
  case isTrue htwo =>
  rw [if_pos htwo] at hframed
  split
  case isFalse => trivial
  case isTrue hthird =>
  rw [if_pos hthird] at hframed
  refine ⟨hframed, htwo, hempty, ?_, ?_⟩
  · intro i hlow hi
    simp only [Bitmap.isset_mark, Bitmap.isset_bitmapCreate hi, Bool.false_or,
      Bool.or_eq_false_iff, decide_eq_false_iff_not]
    omega
  · intro i hlow hhigh
    omega

theorem freeKpages_holds {kept : Nat → Prop} (haligned : start % PAGE_SIZE = 0)
    (hkept : ∀ i, head ≤ i → i < head + n → kept i) (hholds : m.Holds start frames head n)
    (hother : ∀ i, kept i → (m.coremap i).va ≠ addr) :
    Prog.wp (freeKpages addr) (fun _ m' => m'.Holds start frames head n) (fun _ _ => False)
      (fun _ => True) m := by
  obtain ⟨top, hlaid⟩ := hholds.1
  apply freeKpages_wp addr hholds
  intro i _ hlow hva
  apply (release_removed haligned hlaid.toFramed i).holds hholds hlow
  intro hblock
  exact hother i (hkept i hblock.1 hblock.2) hva

theorem asDestroy_holds {kept : Nat → Prop} {pages : AsPages} {rest : Addrspace}
    (haligned : start % PAGE_SIZE = 0)
    (hkept : ∀ i, head ≤ i → i < head + n → kept i) (hholds : m.Holds start frames head n)
    (hnames : ∀ i, m.Names a i → 3 ≤ i ∧ ¬ kept i)
    (hother : ∀ i, kept i → ¬ pages.Has (m.coremap i).va)
    (hrest : ∀ t, 512 ≤ t → t < 768 → rest.firstpt t = none) :
    Prog.wp (asDestroy a pages rest) (fun _ m' => m'.Holds start frames head n)
      (fun _ _ => False) (fun _ => True) m := by
  apply asDestroy_keeps _ _ _ _ hholds
  · intro m₁ i hholds₁ hname
    obtain ⟨top, hlaid⟩ := hholds₁.1
    apply (release_removed haligned hlaid.toFramed i).holds hholds₁ (hnames i hname).1
    intro hblock
    exact (hnames i hname).2 (hkept i hblock.1 hblock.2)
  · intro m₁ i hholds₁ hlow hpage
    obtain ⟨top, hlaid⟩ := hholds₁.1
    apply (release_removed haligned hlaid.toFramed i).holds hholds₁ hlow
    intro hblock
    apply hother i (hkept i hblock.1 hblock.2)
    rw [hholds.2.va i hblock.1 hblock.2, ← hholds₁.2.va i hblock.1 hblock.2]
    exact hpage
  · intro m₁ tlb asid hholds₁
    exact hholds₁.sameMap (sameMap_tlb m₁ tlb asid)
  · intro m₁ hholds₁
    refine hholds₁.sameMap ⟨rfl, rfl, rfl, fun _ => rfl, fun _ => rfl, fun _ h => h, ?_⟩
    intro a' t hlow hhigh hnone
    by_cases ha : a' = a
    · rw [ha]
      simpa using hrest t hlow hhigh
    · simpa [ha] using hnone

theorem KpagesStep.holds {kept : Nat → Prop} (haligned : start % PAGE_SIZE = 0)
    (hroom : start + frames * PAGE_SIZE ≤ 0x20000000)
    (hkept : ∀ i, head ≤ i → i < head + n → kept i) (hstep : KpagesStep kept m m')
    (hholds : m.Holds start frames head n) : m'.Holds start frames head n := by
  have hkeeps := @holds_pagerKeeps start frames head n hroom
  cases hstep with
  | allocKpages hdone =>
      exact ((allocKpages_holds haligned hroom hholds _).post_of_ok hdone).1
  | freeKpages hother hdone =>
      exact (freeKpages_holds haligned hkept hholds hother).post_of_ok hdone
  | vmFault hmiss hdone =>
      exact (hkeeps.vmFault _ _ (mapped_of_miss hmiss) m hholds).post_of_ok hdone
  | vmFaultError hmiss hdone =>
      exact (hkeeps.vmFault _ _ (mapped_of_miss hmiss) m hholds).fails_of_error hdone
  | evict hdone =>
      exact (hkeeps.evict (hkeeps.kernelTouch _) _ m hholds).post_of_ok hdone
  | swapIn hdone =>
      exact (hkeeps.swapIn (hkeeps.kernelTouch _) _ _ m hholds).post_of_ok hdone
  | asDestroy hnames hother hrest hdone =>
      exact (asDestroy_holds haligned hkept hholds hnames hother hrest).post_of_ok hdone
  | elsewhere ram tlb asid tVmspace pid addrspace htables =>
      exact hholds.sameMap ⟨rfl, rfl, rfl, fun _ => rfl, fun _ => rfl, fun _ h => h,
        fun a t hlow hhigh _ => htables a t hlow hhigh⟩

/-- `free_kpages` undoes `alloc_kpages` for single pages and for nothing larger:
the frames of a block after the first stay marked. -/
theorem kpages_undone_iff (haligned : start % PAGE_SIZE = 0)
    (hroom : start + frames * PAGE_SIZE ≤ 0x20000000) (hboot : m₀.Laid start frames 3)
    (hhistory : Relation.ReflTransGen (KpagesStep fun _ => False) m₀ m)
    (halloc : allocKpages npages unset m = .ok a m₁) (ha : a ≠ 0)
    (hbetween : Relation.ReflTransGen (KpagesStep (TakenBetween m m₁)) m₁ m₂) :
    ∃ m₃, freeKpages a m₂ = .ok () m₃ ∧ (Undoes m m₁ m₂ m₃ ↔ npages = 1) := by
  have hholds : m.Holds start frames 0 0 :=
    invariant_of_steps (Holds start frames 0 0) hhistory ⟨⟨3, hboot⟩, block_zero start 0 m₀⟩
      (fun _ _ hbefore hstep => hstep.holds haligned hroom (by omega) hbefore)
  obtain ⟨hholds₁, hnew⟩ := (allocKpages_holds haligned hroom hholds unset).post_of_ok halloc
  obtain ⟨head, hallocated⟩ := hnew ha
  have hle := hallocated.le
  have hpages := hallocated.pages
  have htaken (i : Nat) : TakenBetween m m₁ i ↔ head ≤ i ∧ i < head + npages := by
    constructor
    · rintro ⟨hclear, hset⟩
      rcases (hallocated.bits i).mp hset with hold | hin
      · rw [hclear] at hold
        cases hold
      · exact hin
    · intro hin
      exact ⟨hallocated.clear i hin.1 hin.2, (hallocated.bits i).mpr (Or.inr hin)⟩
  have hholds₂ : m₂.Holds start frames head npages :=
    invariant_of_steps (Holds start frames head npages) hbetween
      ⟨hholds₁.1, hallocated.block⟩
      (fun _ _ hbefore hstep => hstep.holds haligned hroom
        (fun i hlow hhigh => (htaken i).mpr ⟨hlow, hhigh⟩) hbefore)
  obtain ⟨_, m₃, hdone, rfl⟩ := (freeKpages_head hholds₂ hpages hallocated.ge
    (by omega)).exists_ok
  refine ⟨m₂.removed head, ?_, ?_⟩
  · rw [hallocated.address]
    exact hdone
  · have hbits (i : Nat) : (m₂.removed head).gblBmp.bitmapIsset i = true ↔
        m₂.gblBmp.bitmapIsset i = true ∧ i ≠ head := by
      rw [isset_removed, Bool.and_eq_true, decide_eq_true_eq]
    constructor
    · intro hundoes
      by_contra hmany
      -- The second frame of the block is still marked.
      have hsecond := (hbits (head + 1)).mpr
        ⟨hholds₂.2.marked (head + 1) (by omega) (by omega), by omega⟩
      have hkept := ((hundoes (head + 1)).mp hsecond).2
      rw [htaken] at hkept
      omega
    · rintro rfl
      intro i
      rw [hbits, htaken]
      apply and_congr_right
      omega

private theorem booted_laid : booted.Laid 0x43000 6 3 := by
  have hok : (coremapInit 0x40000 0x49000 powerOn).returned = some () := by
    decide
  have hboot := @coremapInit_laid powerOn 0x40000 0x49000 (fun _ _ _ _ => rfl) (by decide)
    (by decide)
  exact hboot.post_of_ok (Result.eq_ok_of_returned powerOn hok)

private def onePage : Machine := (allocKpages 1 ⟨0, 0⟩ booted).stateD booted

private def threePages : Machine := (allocKpages 2 ⟨0, 0⟩ onePage).stateD onePage

/-- One page, with a block of two allocated after it, comes back alone. -/
theorem kpages_undone_one_page :
    allocKpages 1 ⟨0, 0⟩ booted = .ok 0x80046000 onePage ∧
    ∃ m₃, freeKpages 0x80046000 threePages = .ok () m₃ ∧
      Undoes booted onePage threePages m₃ := by
  have hone : (allocKpages 1 ⟨0, 0⟩ booted).returned = some 0x80046000 := by
    decide
  have htwo : (allocKpages 2 ⟨0, 0⟩ onePage).returned = some 0x80047000 := by
    decide
  have halloc := Result.eq_ok_of_returned booted hone
  refine ⟨halloc, ?_⟩
  obtain ⟨m₃, hfree, hundoes⟩ := kpages_undone_iff (by decide) (by decide) booted_laid .refl
    halloc (by decide) (.single (.allocKpages (Result.eq_ok_of_returned onePage htwo)))
  exact ⟨m₃, hfree, hundoes.mpr rfl⟩

private def twoPages : Machine := (allocKpages 2 ⟨0, 0⟩ booted).stateD booted

private def twoFreed : Machine := (freeKpages 0x80046000 twoPages).stateD twoPages

/-- Frame 4, the second of two, stays marked after `free_kpages`. -/
theorem second_page_leaks :
    booted.Laid 0x43000 6 3 ∧ allocKpages 2 ⟨0, 0⟩ booted = .ok 0x80046000 twoPages ∧
    freeKpages 0x80046000 twoPages = .ok () twoFreed ∧
    ¬ Undoes booted twoPages twoPages twoFreed := by
  have htwo : (allocKpages 2 ⟨0, 0⟩ booted).returned = some 0x80046000 := by
    decide
  have hfree : (freeKpages 0x80046000 twoPages).returned = some () := by
    decide
  refine ⟨booted_laid, Result.eq_ok_of_returned booted htwo,
    Result.eq_ok_of_returned twoPages hfree, ?_⟩
  intro hundoes
  have hleft := (hundoes 4).mp (by decide)
  exact hleft.2 ⟨by decide, by decide⟩

end OS161.VM.Machine
